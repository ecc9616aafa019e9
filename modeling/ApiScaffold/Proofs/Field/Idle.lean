import ApiScaffold.Proofs.Feature.Warnings
import ApiScaffold.Proofs.Field.Mapping

namespace ApiScaffold

variable {f : Field} {r : Rule}

/-- The rule of the field has nothing to say: it is no rule, the type cannot carry it, or what follows its key is not
what the key takes. -/
inductive Field.HasIdleRule (f : Field) : Prop
  | unknown (hemail : Text.strip f.rule.toList ≠ "email".toList)
      (hbound : ∀ key payload, Text.strip f.rule.toList ≠ BoundKey.token key ++ '=' :: payload)
      (henum : ∀ payload, Text.strip f.rule.toList ≠ "enum".toList ++ '=' :: payload)
  | email (h : Text.strip f.rule.toList = "email".toList) (htype : f.typeName ≠ "string")
  | bound {key : BoundKey} {payload : List Char} (h : Text.strip f.rule.toList = key.token ++ '=' :: payload)
      (hstring : f.typeName ≠ "string") (hnumber : f.typeName ≠ "number")
  | noNumber {key : BoundKey} {payload : List Char} (h : Text.strip f.rule.toList = key.token ++ '=' :: payload)
      (hnumber : ∀ n, ¬Number.Denotes (Text.strip payload) n)
  | noLiteral {payload : List Char} (h : Text.strip f.rule.toList = "enum".toList ++ '=' :: payload)
      (hempty : ∀ l ∈ payload.splitOn '|', l = [])

namespace Rule

variable {cs payload : List Char} {kind : Kind} {k : FieldKind}

theorem literals_eq_nil_iff : literals payload = [] ↔ ∀ l ∈ payload.splitOn '|', l = [] := by
  rw [literals, List.map_eq_nil_iff, List.filter_eq_nil_iff]
  simp

theorem Means.ne_oneOf {key : BoundKey} (h : cs = key.token ++ '=' :: payload) {ls : List String} :
    ¬Means cs (.oneOf ls) := by
  intro hmeans
  cases hmeans with
  | oneOf henum =>
      rw [h] at henum
      have hcut := congrArg (Text.cut '=') henum
      rw [Text.cut_append key.noMark_token, Text.cut_append (by decide)] at hcut
      exact key.token_ne_enum (congrArg Prod.fst hcut)

theorem appliesTo_email_eq (hr : r.kind = .email) (hk : k ≠ .string) : r.appliesTo (.ofKind k) = false := by
  rw [appliesTo, hr]
  cases k with
  | string => exact absurd rfl hk
  | number | boolean | unknown => rfl

theorem appliesTo_other_eq (hr : ∀ ls, r.kind ≠ .oneOf ls) (hs : k ≠ .string) (hn : k ≠ .number) :
    r.appliesTo (.ofKind k) = false := by
  rw [appliesTo]
  cases hkind : r.kind with
  | absent | unknown => rfl
  | oneOf ls => exact absurd hkind (hr ls)
  | email | bound =>
      cases k with
      | string => exact absurd rfl hs
      | number => exact absurd rfl hn
      | boolean | unknown => rfl

end Rule

theorem Field.HasIdleRule.appliesTo_eq (h : f.HasIdleRule) (hr : Rule.read f.rule = .ok r) :
    r.appliesTo (.ofKind (.ofToken f.typeName)) = false := by
  have hmeans := (Rule.read_eq_ok_iff.1 hr).1
  cases h with
  | unknown hemail hbound henum =>
      rw [Rule.appliesTo]
      generalize r.kind = kind at hmeans
      cases hmeans with
      | absent | noMark | noLiteral | noNumber | noKey => rfl
      | email h => exact absurd h hemail
      | bound h => exact absurd h (hbound _ _)
      | oneOf h => exact absurd h (henum _)
  | email h htype =>
      exact Rule.appliesTo_email_eq (hmeans.unique (.email h)) (mt FieldKind.ofToken_eq_string_iff.1 htype)
  | bound h hstring hnumber =>
      refine Rule.appliesTo_other_eq (fun ls hls => ?_) (mt FieldKind.ofToken_eq_string_iff.1 hstring)
        (mt FieldKind.ofToken_eq_number_iff.1 hnumber)
      exact Rule.Means.ne_oneOf h (hls ▸ hmeans)
  | @noNumber key payload h hnumber =>
      have hread := Number.read?_eq_none_iff.2 hnumber
      have hunknown := hmeans.unique (.noNumber h key.noMark_token key.token_ne_enum hread)
      rw [Rule.appliesTo, hunknown]
  | noLiteral h hempty =>
      have hunknown := hmeans.unique (.noLiteral h (Rule.literals_eq_nil_iff.2 hempty))
      rw [Rule.appliesTo, hunknown]

namespace Feature

variable {feature : String} {seen : List String} {fs : List Field}

theorem readable_of_warningsAfter {ws : List Warning} (h : warningsAfter feature seen fs = .ok ws) :
    ∀ x ∈ fs, ∃ r, Rule.read x.rule = .ok r := by
  induction fs generalizing seen ws with
  | nil => simp
  | cons x fs ih =>
      rw [warningsAfter, fieldWarnings] at h
      cases hr : Rule.read x.rule with
      | error e =>
          rw [hr] at h
          cases h
      | ok r =>
          rw [hr] at h
          cases hrest : warningsAfter feature (x.name :: seen) fs with
          | error e =>
              simp only [bind, Except.bind, hrest] at h
              cases h
          | ok rest =>
              intro y hy
              rcases List.mem_cons.1 hy with rfl | hy
              · exact ⟨r, hr⟩
              · exact ih hrest y hy

theorem reviewFields_ok_iff {g : Feature} : (∃ rv, g.reviewFields = .ok rv) ↔ ∀ x ∈ g.fields, ¬x.HasLongNumeral := by
  constructor
  · rintro ⟨rv, hrv⟩ x hx
    rw [reviewFields] at hrv
    cases hws : warningsAfter g.name [] g.fields with
    | error e =>
        rw [hws] at hrv
        cases hrv
    | ok ws =>
        obtain ⟨r, hr⟩ := readable_of_warningsAfter hws x hx
        exact Field.not_hasLongNumeral hr
  · intro h
    have hrules : g.HasReadableRules := by
      intro x hx
      rcases x.read_rule_ends with ⟨-, hlong⟩ | ⟨hr, -⟩
      · exact absurd hlong (h x hx)
      · exact hr
    exact ⟨_, reviewFields_eq hrules⟩

end Feature

/-- An idle rule has no effect, on the mapping and on the review, unless it has a number too long to be read. -/
theorem Field.HasIdleRule.no_effect_iff (h : f.HasIdleRule) :
    ((∃ m plain, Mapping.ofField f = .ok m ∧ Mapping.ofField { f with rule := "" } = .ok plain ∧
        m.kind = plain.kind ∧ m.validator = plain.validator ∧ m.sample = plain.sample) ↔ ¬f.HasLongNumeral) ∧
      ∀ feature, (∃ rv, Feature.reviewFields ⟨feature, [f]⟩ = .ok rv) ↔ ¬f.HasLongNumeral := by
  refine ⟨⟨?_, fun hshort => ?_⟩, fun feature => ?_⟩
  · rintro ⟨m, plain, hm, -⟩
    exact Field.not_hasLongNumeral (Mapping.ofField_ok hm).1
  · rcases f.read_rule_ends with ⟨-, hlong⟩ | ⟨⟨r, hr⟩, -⟩
    · exact absurd hlong hshort
    · have hplain : Mapping.ofField { f with rule := "" } =
          .ok ⟨{ f with rule := "" }, ⟨"", .absent⟩, .ofToken f.typeName, .plain (.ofKind (.ofToken f.typeName)),
            .ofKind (.ofToken f.typeName) f.name⟩ := Mapping.ofField_idle rfl rfl
      exact ⟨_, _, Mapping.ofField_idle hr (h.appliesTo_eq hr), hplain, rfl, rfl, rfl⟩
  · rw [Feature.reviewFields_ok_iff]
    simp

theorem Field.HasIdleRule.no_effect_iff_boolean :
    let f : Field := ⟨"done", "boolean", " min=3 "⟩
    f.HasIdleRule ∧
      ((∃ m plain, Mapping.ofField f = .ok m ∧ Mapping.ofField { f with rule := "" } = .ok plain ∧
          m.kind = plain.kind ∧ m.validator = plain.validator ∧ m.sample = plain.sample) ↔ ¬f.HasLongNumeral) ∧
        ∀ feature, (∃ rv, Feature.reviewFields ⟨feature, [f]⟩ = .ok rv) ↔ ¬f.HasLongNumeral := by
  intro f
  have hrule : Text.strip f.rule.toList = BoundKey.min.token ++ '=' :: ['3'] := by decide
  have hidle : f.HasIdleRule := .bound hrule (by decide) (by decide)
  exact ⟨hidle, hidle.no_effect_iff⟩

theorem Field.hasIdleRule_of_key {key payload : List Char} (h : Text.strip f.rule.toList = key ++ '=' :: payload)
    (hkey : '=' ∉ key) (htoken : BoundKey.ofToken? key = none) (henum : key ≠ "enum".toList) : f.HasIdleRule := by
  have hcut := Text.cut_append hkey payload
  rw [← h] at hcut
  refine .unknown (fun h => ?_) (fun k payload h => ?_) fun payload h => ?_
  · rw [h, Text.cut_of_not_mem (by decide)] at hcut
    cases hcut
  · rw [h, Text.cut_append k.noMark_token] at hcut
    have hk : k.token = key := congrArg Prod.fst hcut
    rw [BoundKey.ofToken?_eq_some_iff.2 hk.symm] at htoken
    cases htoken
  · rw [h, Text.cut_append (by decide)] at hcut
    exact henum (congrArg Prod.fst hcut).symm

theorem Number.isOverlong_nines {n : Nat} (h : 4300 < n) : IsOverlong (List.replicate n '9') n := by
  refine ⟨⟨false, List.replicate n '9', rfl, ⟨?_, ?_⟩, List.length_replicate⟩, h⟩
  · rw [Ne, List.replicate_eq_nil_iff]
    omega
  · intro c hc
    rw [List.eq_of_mem_replicate hc]
    decide

theorem Text.nines_notBlank {n : Nat} : ∀ c ∈ List.replicate n '9', isBlank c = false := by
  intro c hc
  rw [List.eq_of_mem_replicate hc]
  decide

theorem Rule.strip_dueNines (n : Nat) :
    Text.strip ("due=" ++ String.ofList (List.replicate (n + 1) '9')).toList =
      "due".toList ++ '=' :: List.replicate (n + 1) '9' := by
  have htrimmed : Text.IsTrimmed (['d', 'u', 'e', '='] ++ List.replicate (n + 1) '9') :=
    Text.isTrimmed_of_forall (List.forall_mem_append.2 ⟨by simp [Text.isBlank], Text.nines_notBlank⟩)
  rw [String.toList_append, String.toList_ofList, String.toList_ofList, htrimmed.strip_eq]
  rfl

theorem Rule.read_dueNines {n : Nat} (h : 4300 ≤ n) :
    read ("due=" ++ String.ofList (List.replicate (n + 1) '9')) = .error (.longNumeral (n + 1)) := by
  have hpayload : Text.strip (List.replicate (n + 1) '9') = List.replicate (n + 1) '9' :=
    (Text.isTrimmed_of_forall Text.nines_notBlank).strip_eq
  refine read_eq_error_iff.2 ⟨n + 1, ⟨_, _, strip_dueNines n, by decide, by decide, ?_⟩, rfl⟩
  rw [hpayload]
  exact Number.isOverlong_nines (by omega)

/-- A key that is none of a bound has a number that is too long to be read, and neither generation nor review passes
over the rule. -/
theorem Field.long_due_not_ignored :
    let f : Field := ⟨"a", "string", "due=" ++ String.ofList (List.replicate 4301 '9')⟩
    f.HasIdleRule ∧ Mapping.ofField f = .error (.longNumeral 4301) ∧
      Feature.reviewFields ⟨"user", [f]⟩ = .error (.longNumeral 4301) := by
  intro f
  have hread : Rule.read f.rule = .error (.longNumeral 4301) := Rule.read_dueNines (Nat.le_refl 4300)
  refine ⟨Field.hasIdleRule_of_key (Rule.strip_dueNines 4300) (by decide) (by decide) (by decide),
    Mapping.ofField_of_error hread, ?_⟩
  rw [Feature.reviewFields, Feature.warningsAfter, Feature.fieldWarnings, hread]
  rfl

end ApiScaffold
