import ApiScaffold.Feature.Review
import ApiScaffold.Proofs.Field.Sample
import ApiScaffold.Proofs.Text.Trim
import Mathlib.Data.Finset.Card
import Mathlib.Data.List.Infix

namespace ApiScaffold

namespace Rule

variable {token : String} {r : Rule}

theorem readKind_eq_absent_iff (cs : List Char) : readKind cs = .ok .absent ↔ cs = [] := by
  refine ⟨fun h => ?_, fun h => by rw [h]; rfl⟩
  cases isReading_of_readKind h with
  | absent hcs => exact hcs

theorem kind_eq_absent_iff (h : read token = .ok r) :
    r.kind = .absent ↔ ∀ c ∈ token.toList, Text.isBlank c = true := by
  rw [← Text.strip_eq_nil_iff, ← readKind_eq_absent_iff, readKind_of_read h]
  simp

theorem text_oneOf_ne (ls : List String) (k : FieldKind) :
    (Validator.oneOf ls).text ≠ (Validator.Base.ofKind k).text := by
  intro h
  have hlists := congrArg String.toList h
  cases k <;> simp [Validator.text, Validator.enumText, Validator.Base.ofKind, Validator.Base.text] at hlists

/-- The text of the plain validator stays just where the rule does not apply. -/
theorem text_compile_eq_iff (r : Rule) (k : FieldKind) :
    (r.compile (.ofKind k)).text = (Validator.Base.ofKind k).text ↔ r.appliesTo (.ofKind k) = false := by
  refine ⟨fun h => ?_, fun h => by rw [compile, h]; rfl⟩
  by_contra happ
  rw [Bool.not_eq_false] at happ
  rw [compile, if_pos happ] at h
  have hclose : 0 < ")".length := by decide
  cases hkind : r.kind with
  | absent | unknown =>
      rw [appliesTo, hkind] at happ
      cases happ
  | oneOf ls =>
      rw [hkind] at h
      exact text_oneOf_ne ls k h
  | email =>
      rw [hkind] at h
      have hlength := congrArg String.length h
      simp [Validator.text] at hlength
  | bound key limit =>
      rw [hkind] at h
      have hlength := congrArg String.length h
      cases hkey : key.isLower <;>
        simp only [hkey, Bool.false_eq_true, if_true, if_false, Validator.text, String.length_append] at hlength <;>
        omega

end Rule

/-- Generation ignores the rule of the field: there is a rule, and the validator is the plain one of the type. -/
def Field.IgnoresRule (x : Field) : Prop :=
  (∃ c ∈ x.rule.toList, Text.isBlank c = false) ∧
    ∃ m, Mapping.ofField x = .ok m ∧ m.validator.text = (Validator.Base.ofKind (.ofToken x.typeName)).text

instance (x : Field) : Decidable x.IgnoresRule :=
  haveI : Decidable (∃ c ∈ x.rule.toList, Text.isBlank c = false) := List.decidableBEx _ _
  match h : Mapping.ofField x with
  | .ok m => decidable_of_iff ((∃ c ∈ x.rule.toList, Text.isBlank c = false) ∧
      m.validator.text = (Validator.Base.ofKind (.ofToken x.typeName)).text) (by simp [Field.IgnoresRule, h])
  | .error e => .isFalse (by simp [Field.IgnoresRule, h])

theorem Field.ignoresRule_iff {x : Field} {r : Rule} (hr : Rule.read x.rule = .ok r) :
    x.IgnoresRule ↔ r.kind ≠ .absent ∧ r.appliesTo (.ofKind (.ofToken x.typeName)) = false := by
  have hrule : (∃ c ∈ x.rule.toList, Text.isBlank c = false) ↔ r.kind ≠ .absent := by
    rw [Ne, Rule.kind_eq_absent_iff hr]
    simp
  rw [IgnoresRule, hrule]
  refine and_congr_right fun _ => ⟨?_, fun hidle => ?_⟩
  · rintro ⟨m, hm, htext⟩
    obtain ⟨hread, -, -, -, hvalidator⟩ := Mapping.ofField_ok hm
    obtain rfl : r = m.rule := Except.ok.inj (hr.symm.trans hread)
    rwa [hvalidator, Rule.text_compile_eq_iff] at htext
  · exact ⟨_, Mapping.ofField_idle hr hidle, rfl⟩

namespace Feature

variable {f : Feature} {x : Field} {r : Rule}

def Warning.isRepeated : Warning → Bool
  | repeated _ => true
  | _ => false

def ignoredRule (feature : String) (x : Field) : Warning :=
  match (Rule.read x.rule).map Rule.kind with
  | .ok .unknown => .unknownRule x.rule (label feature x)
  | _ => .idleRule x.rule x.typeName (label feature x)

/-- What can be said of a field that comes after `earlier` ones, each with whether it is so. -/
def findings (feature : String) (earlier : List Field) (x : Field) : List (Bool × Warning) := [
  (x.name = "", .unnamed x.token feature),
  (x.name ≠ "" ∧ Identifier.isValid x.name = false, .fieldName (label feature x)),
  (x.name ∈ earlier.map Field.name, .repeated (label feature x)),
  (x.name = "id", .clash (label feature x)),
  (x.typeName ∉ ["string", "number", "boolean"], .unknownType x.typeName (label feature x)),
  (x.IgnoresRule, ignoredRule feature x)]

def degraded (feature : String) (earlier : List Field) (x : Field) : List Warning :=
  (findings feature earlier x).flatMap fun (holds, w) => if holds then [w] else []

def degradationsAfter (feature : String) (earlier fs : List Field) : List Warning :=
  (fs.zip fs.inits).flatMap fun (x, before) => degraded feature (earlier ++ before) x

def degradations (f : Feature) : List Warning := degradationsAfter f.name [] f.fields

theorem ruleWarnings_eq (feature : String) (hr : Rule.read x.rule = .ok r) :
    ruleWarnings feature x r = if x.IgnoresRule then [ignoredRule feature x] else [] := by
  have hwarning : ignoredRule feature x =
      if r.kind = .unknown then .unknownRule x.rule (label feature x)
      else .idleRule x.rule x.typeName (label feature x) := by
    rw [ignoredRule, hr, Except.map]
    cases r.kind <;> rfl
  have hignores := Field.ignoresRule_iff hr
  split
  next hi =>
    obtain ⟨hkind, hidle⟩ := hignores.1 hi
    rw [ruleWarnings, hwarning]
    cases hk : r.kind with
    | absent => exact absurd hk hkind
    | unknown => rfl
    | email | bound | oneOf => simp [hidle]
  next hi =>
    rw [ruleWarnings]
    cases hk : r.kind with
    | absent => rfl
    | unknown => exact absurd (hignores.2 ⟨by simp [hk], by rw [Rule.appliesTo, hk]⟩) hi
    | email | bound | oneOf =>
        have happ : r.appliesTo (.ofKind (.ofToken x.typeName)) = true := by
          by_contra hidle
          exact hi (hignores.2 ⟨by simp [hk], by simpa using hidle⟩)
        simp [happ]

theorem ofToken_eq_unknown_iff (token : String) :
    FieldKind.ofToken token = .unknown ↔ token ∉ ["string", "number", "boolean"] := by
  unfold FieldKind.ofToken
  split_ifs with hs hn hb <;> simp_all

theorem fieldWarnings_eq (feature : String) {seen : List String} {earlier : List Field}
    (hseen : ∀ n, n ∈ seen ↔ n ∈ earlier.map Field.name) (hr : Rule.read x.rule = .ok r) :
    fieldWarnings feature seen x = .ok (degraded feature earlier x) := by
  have hname : nameWarnings feature x =
      (if x.name = "" then [.unnamed x.token feature] else []) ++
        if x.name ≠ "" ∧ Identifier.isValid x.name = false then [.fieldName (label feature x)] else [] := by
    rw [nameWarnings]
    by_cases hempty : x.name = ""
    · simp [hempty]
    · cases hvalid : Identifier.isValid x.name <;> simp [hempty]
  have hrepeated : seen.contains x.name = true ↔ x.name ∈ earlier.map Field.name := by
    rw [List.contains_iff_mem, hseen]
  rw [fieldWarnings, hr]
  dsimp only [bind, Except.bind]
  rw [ruleWarnings_eq feature hr, hname]
  simp only [hrepeated, ofToken_eq_unknown_iff, degraded, findings, List.flatMap_cons, List.flatMap_nil,
    decide_eq_true_eq, List.append_assoc, List.append_nil]

theorem degradationsAfter_cons (feature : String) (earlier : List Field) (x : Field) (fs : List Field) :
    degradationsAfter feature earlier (x :: fs) =
      degraded feature earlier x ++ degradationsAfter feature (earlier ++ [x]) fs := by
  simp [degradationsAfter, List.zip_map_right, List.flatMap_map]

/-- The loop over the fields says of each what is degraded of it after the fields before it. -/
theorem warningsAfter_eq (feature : String) {fs : List Field} (h : ∀ x ∈ fs, ∃ r, Rule.read x.rule = .ok r)
    {seen : List String} {earlier : List Field} (hseen : ∀ n, n ∈ seen ↔ n ∈ earlier.map Field.name) :
    warningsAfter feature seen fs = .ok (degradationsAfter feature earlier fs) := by
  induction fs generalizing seen earlier with
  | nil => rfl
  | cons x fs ih =>
      obtain ⟨r, hr⟩ := h x (by simp)
      have hnext : ∀ n, n ∈ x.name :: seen ↔ n ∈ (earlier ++ [x]).map Field.name := by
        intro n
        simp [hseen, or_comm]
      have hrest := ih (fun y hy => h y (by simp [hy])) hnext
      rw [warningsAfter, fieldWarnings_eq feature hseen hr, hrest, degradationsAfter_cons]
      rfl

theorem countP_degraded (feature : String) (earlier : List Field) (x : Field) :
    (degraded feature earlier x).countP Warning.isRepeated = if x.name ∈ earlier.map Field.name then 1 else 0 := by
  have hignored : (ignoredRule feature x).isRepeated = false := by
    rw [ignoredRule]
    split <;> rfl
  have hcount (holds : Bool) (w : Warning) :
      (if holds then [w] else []).countP Warning.isRepeated = if holds && w.isRepeated then 1 else 0 := by
    cases holds <;> simp [List.countP_singleton]
  simp only [degraded, findings, List.flatMap_cons, List.flatMap_nil, List.countP_append, List.countP_nil, hcount,
    hignored]
  simp [Warning.isRepeated]

theorem countP_degradationsAfter (feature : String) (earlier fs : List Field) :
    (degradationsAfter feature earlier fs).countP Warning.isRepeated + ((earlier ++ fs).map Field.name).toFinset.card =
      fs.length + (earlier.map Field.name).toFinset.card := by
  induction fs generalizing earlier with
  | nil => simp [degradationsAfter]
  | cons x fs ih =>
      have hrest := ih (earlier ++ [x])
      have hnew : ((earlier ++ [x]).map Field.name).toFinset = insert x.name (earlier.map Field.name).toFinset := by
        ext n
        simp
      rw [hnew, Finset.card_insert_eq_ite, List.append_assoc, List.singleton_append] at hrest
      rw [degradationsAfter_cons, List.countP_append, countP_degraded, List.length_cons]
      simp only [List.mem_toFinset] at hrest
      split_ifs at hrest ⊢ <;> omega

def HasReadableRules (f : Feature) : Prop := ∀ x ∈ f.fields, ∃ r, Rule.read x.rule = .ok r

theorem reviewFields_eq (h : f.HasReadableRules) :
    f.reviewFields = .ok ⟨true, [], (degradations f).map Warning.message⟩ := by
  have hwarnings : warningsAfter f.name [] f.fields = .ok (degradations f) := warningsAfter_eq f.name h fun n => by simp
  rw [reviewFields, hwarnings]
  rfl

theorem valid_reviewName (name : String) : (reviewName name).valid = true ↔ name ≠ "" := by
  rw [reviewName]
  split_ifs with hempty <;> simp [hempty, Review.addError, Review.addWarning, Review.clean, Review.of]

/-- Only the name decides on a feature, and the warnings about its fields are what generation degrades. -/
theorem review_reports_degradations (h : f.HasReadableRules) :
    (∃ rv, f.review = .ok rv ∧ (rv.valid = true ↔ f.name ≠ "")) ∧
      f.reviewFields = .ok ⟨true, [], (degradations f).map Warning.message⟩ ∧
      (degradations f).countP Warning.isRepeated = f.fields.length - (f.fields.map Field.name).toFinset.card := by
  refine ⟨⟨(reviewName f.name).merge ⟨true, [], (degradations f).map Warning.message⟩,
    by rw [review, reviewFields_eq h]; rfl, ?_⟩, reviewFields_eq h, ?_⟩
  · rw [Review.merge_eq, ← valid_reviewName]
    simp
  · have hcount := countP_degradationsAfter f.name [] f.fields
    simp only [List.nil_append, List.map_nil, List.toFinset_nil, Finset.card_empty, Nat.add_zero] at hcount
    rw [degradations]
    omega

/-- Two fields of one name, of which the second has a rule that its type cannot carry, and one of no known type. -/
theorem things_review_reports_degradations :
    let f : Feature := ⟨"things", [
      ⟨"name", "string", "minlength=3"⟩, ⟨"name", "boolean", "min=3"⟩, ⟨"1st", "date", "due"⟩]⟩
    f.HasReadableRules ∧ degradations f = [
        .repeated "things.name", .idleRule "min=3" "boolean" "things.name", .fieldName "things.1st",
        .unknownType "date" "things.1st", .unknownRule "due" "things.1st"] ∧
      (∃ rv, f.review = .ok rv ∧ (rv.valid = true ↔ f.name ≠ "")) ∧
      f.reviewFields = .ok ⟨true, [], (degradations f).map Warning.message⟩ ∧
      (degradations f).countP Warning.isRepeated = f.fields.length - (f.fields.map Field.name).toFinset.card := by
  intro f
  have hrules : f.HasReadableRules := by
    simp only [HasReadableRules, f, List.forall_mem_cons]
    exact ⟨⟨_, rfl⟩, ⟨_, rfl⟩, ⟨_, rfl⟩, by simp⟩
  exact ⟨hrules, by decide, review_reports_degradations hrules⟩

end Feature

end ApiScaffold
