import ApiScaffold.Proofs.Field.Fitting
import ApiScaffold.Proofs.Field.Rule

namespace ApiScaffold

namespace Text

/-- The number of UTF-16 units, which is the length of a text in TypeScript. -/
def width (cs : List Char) : Nat := (cs.flatMap fun c => Json.units c.toNat).length

theorem width_append (cs ds : List Char) : width (cs ++ ds) = width cs + width ds := by
  simp [width]

theorem length_le_width (cs : List Char) : cs.length ≤ width cs := by
  induction cs with
  | nil => simp
  | cons c cs ih =>
      have hunits : 1 ≤ (Json.units c.toNat).length := by
        unfold Json.units
        split <;> simp
      have hcons : width (c :: cs) = (Json.units c.toNat).length + width cs := by simp [width]
      rw [hcons, List.length_cons]
      omega

theorem width_mono {cs ds : List Char} (h : cs <+: ds) : width cs ≤ width ds := by
  obtain ⟨es, rfl⟩ := h
  rw [width_append]
  exact Nat.le_add_right _ _

theorem width_eq_length {cs : List Char} (h : ∀ c ∈ cs, c.toNat < 0x10000) : width cs = cs.length := by
  induction cs with
  | nil => rfl
  | cons c cs ih =>
      have hc : (Json.units c.toNat).length = 1 := by
        rw [Json.units, if_pos (h c (by simp))]
        rfl
      have hcs := ih fun d hd => h d (by simp [hd])
      have hcons : width (c :: cs) = (Json.units c.toNat).length + width cs := by simp [width]
      rw [hcons, hc, hcs, List.length_cons, Nat.add_comm]

end Text

namespace Validator

def Base.accepts : Base → Sample → Bool
  | string, .text _ => true
  | number, .number _ => true
  | boolean, .yes => true
  | any, _ => true
  | _, _ => false

/-- Whether a validator accepts a value; `isEmail` is the library's own test of addresses. -/
def accepts (isEmail : String → Bool) : Validator → Sample → Bool
  | plain b, v => b.accepts v
  | email .string, .text s => isEmail s
  | atLeast .string n, .text s => !(Number.int (Text.width s.toList)).lt n
  | atLeast .number n, .number x => !x.lt n
  | atMost .string n, .text s => !n.lt (.int (Text.width s.toList))
  | atMost .number n, .number x => !n.lt x
  | oneOf ls, .text s => ls.contains s
  | _, _ => false

end Validator

namespace Rule

variable {token : String} {r : Rule} {cs : List Char} {k : Kind}

theorem readKind_of_read (h : read token = .ok r) : readKind (Text.strip token.toList) = .ok r.kind :=
  (read_eq_ok_iff.1 h).1.readKind_eq

inductive IsReading (cs : List Char) : Kind → Prop
  | absent : cs = [] → IsReading cs .absent
  | email : IsReading cs .email
  | bound {key : BoundKey} {limit : Number} {text : List Char} :
      Number.read? text = .ok (some limit) → IsReading cs (.bound key limit)
  | oneOf {ls : List String} : ls ≠ [] → IsReading cs (.oneOf ls)
  | unknown : IsReading cs .unknown

theorem Means.isReading (h : Means cs k) : IsReading cs k := by
  cases h with
  | absent h => exact .absent h
  | email => exact .email
  | bound _ hread => exact .bound hread
  | oneOf _ _ hne => exact .oneOf hne
  | noMark | noLiteral | noNumber | noKey => exact .unknown

theorem isReading_of_readKind (h : readKind cs = .ok k) : IsReading cs k := (means_of_readKind h).isReading

theorem isReading_of_read (h : read token = .ok r) : IsReading (Text.strip token.toList) r.kind :=
  isReading_of_readKind (readKind_of_read h)

theorem read_oneOf_ne_nil {ls : List String} (h : read token = .ok r) (hk : r.kind = .oneOf ls) : ls ≠ [] := by
  have hreading := isReading_of_read h
  rw [hk] at hreading
  cases hreading with
  | oneOf hne => exact hne

theorem read_bound {key : BoundKey} {limit : Number} (h : read token = .ok r) (hk : r.kind = .bound key limit) :
    ∃ cs, Number.read? cs = .ok (some limit) := by
  have hreading := isReading_of_read h
  rw [hk] at hreading
  cases hreading with
  | bound hread => exact ⟨_, hread⟩

end Rule

namespace Mapping

theorem ofField_eq {f : Field} {r : Rule} (hr : Rule.read f.rule = .ok r) :
    ofField f = (sampleFor r (.ofToken f.typeName) f.name).map fun v =>
      ⟨f, r, kindFor r (.ofToken f.typeName), r.compile (.ofKind (.ofToken f.typeName)), v⟩ := by
  rw [ofField, hr]
  dsimp only [bind, Except.bind]
  cases sampleFor r (.ofToken f.typeName) f.name <;> rfl

theorem ofField_of_error {f : Field} {e : Failure} (hr : Rule.read f.rule = .error e) : ofField f = .error e := by
  rw [ofField, hr]
  rfl

theorem ofField_ok {f : Field} {m : Mapping} (h : ofField f = .ok m) :
    Rule.read f.rule = .ok m.rule ∧ sampleFor m.rule (.ofToken f.typeName) f.name = .ok m.sample ∧
      m.field = f ∧ m.kind = kindFor m.rule (.ofToken f.typeName) ∧
      m.validator = m.rule.compile (.ofKind (.ofToken f.typeName)) := by
  cases hr : Rule.read f.rule with
  | error e =>
      rw [ofField_of_error hr] at h
      cases h
  | ok r =>
      rw [ofField_eq hr] at h
      cases hs : sampleFor r (.ofToken f.typeName) f.name with
      | error e =>
          rw [hs] at h
          cases h
      | ok s =>
          rw [hs] at h
          cases h
          exact ⟨rfl, hs, rfl, rfl, rfl⟩

theorem ofField_idle {f : Field} {r : Rule} (hr : Rule.read f.rule = .ok r)
    (hidle : r.appliesTo (.ofKind (.ofToken f.typeName)) = false) :
    ofField f = .ok ⟨f, r, .ofToken f.typeName, .plain (.ofKind (.ofToken f.typeName)),
      .ofKind (.ofToken f.typeName) f.name⟩ := by
  have hkind : kindFor r (.ofToken f.typeName) = .ofToken f.typeName := by
    rw [kindFor]
    split
    next ls hls =>
      rw [Rule.appliesTo, hls] at hidle
      cases hidle
    next => rfl
  rw [ofField_eq hr, sampleFor, hidle, hkind, Rule.compile, hidle]
  rfl

theorem base_accepts (k : FieldKind) (name : String) :
    (Validator.Base.ofKind k).accepts (Sample.ofKind k name) = true := by
  cases k <;> rfl

variable {isEmail : String → Bool} {r : Rule} {k : FieldKind} {name : String} {v : Sample}

theorem accepts_ignored (h : sampleFor r k name = .ok v) (hr : r.appliesTo (.ofKind k) = false) :
    (r.compile (.ofKind k)).accepts isEmail v = true := by
  rw [sampleFor, hr] at h
  cases h
  rw [Rule.compile, hr]
  exact base_accepts k name

theorem accepts_oneOf {ls : List String} (h : sampleFor r k name = .ok v) (hr : r.kind = .oneOf ls)
    (hne : ls ≠ []) : (r.compile (.ofKind k)).accepts isEmail v = true := by
  have happ : r.appliesTo (.ofKind k) = true := by rw [Rule.appliesTo, hr]
  rw [sampleFor, happ, hr] at h
  cases h
  rw [Rule.compile, happ, hr]
  cases ls with
  | nil => exact absurd rfl hne
  | cons l ls => simp [Validator.accepts]

theorem accepts_email (he : isEmail "test@example.com" = true) (h : sampleFor r k name = .ok v)
    (hr : r.kind = .email) : (r.compile (.ofKind k)).accepts isEmail v = true := by
  cases k with
  | string =>
      have happ : r.appliesTo (.ofKind .string) = true := by rw [Rule.appliesTo, hr]; rfl
      rw [sampleFor, happ, hr] at h
      cases h
      rw [Rule.compile, happ, hr]
      exact he
  | number | boolean | unknown => exact accepts_ignored h (by rw [Rule.appliesTo, hr]; rfl)

theorem appliesTo_bound {key : BoundKey} {limit : Number} (hr : r.kind = .bound key limit)
    (hk : k = .string ∨ k = .number) : r.appliesTo (.ofKind k) = true := by
  rw [Rule.appliesTo, hr]
  rcases hk with rfl | rfl <;> rfl

theorem accepts_bound_number {key : BoundKey} {limit : Number} (h : sampleFor r .number name = .ok v)
    (hr : r.kind = .bound key limit) : (r.compile (.ofKind .number)).accepts isEmail v = true := by
  have happ : r.appliesTo (.ofKind .number) = true := appliesTo_bound hr (.inr rfl)
  rw [sampleFor, happ, hr] at h
  cases h
  rw [Rule.compile, happ, hr]
  have hadmits : key.admits limit (Sample.fitNumber (.int 123) key limit) = true := Sample.fitNumber_admits _ key limit
  cases hkey : key.isLower with
  | true =>
      have hfit := (BoundKey.admits_lower_iff hkey).1 hadmits
      simp [Validator.accepts, hkey, Validator.Base.ofKind, hfit]
  | false =>
      have hfit := (BoundKey.admits_upper_iff hkey).1 hadmits
      simp [Validator.accepts, hkey, Validator.Base.ofKind, hfit]

theorem sampleFor_bound_text {key : BoundKey} {limit : Number} (h : sampleFor r .string name = .ok v)
    (hr : r.kind = .bound key limit) :
    ∃ t, Sample.fitText ("sample_" ++ name) key limit = .ok t ∧ v = .text t := by
  rw [sampleFor, appliesTo_bound hr (.inl rfl), hr] at h
  cases ht : Sample.fitText ("sample_" ++ name) key limit with
  | error f =>
      simp [Sample.ofKind, Sample.fit, ht, Except.map] at h
  | ok t =>
      simp only [if_true, Sample.ofKind, Sample.fit, ht, Except.map] at h
      cases h
      exact ⟨t, rfl, rfl⟩

theorem accepts_bound_lower {key : BoundKey} {limit : Number} (h : sampleFor r .string name = .ok v)
    (hr : r.kind = .bound key limit) (hkey : key.isLower = true) :
    (r.compile (.ofKind .string)).accepts isEmail v = true := by
  obtain ⟨t, ht, rfl⟩ := sampleFor_bound_text h hr
  have hlength : (Number.int t.toList.length).lt limit = false := Sample.fitText_lower hkey ht
  have hwidth : (Number.int (Text.width t.toList)).lt limit = false :=
    Number.not_int_lt_mono (by exact_mod_cast Text.length_le_width t.toList) hlength
  rw [Rule.compile, appliesTo_bound hr (.inl rfl), hr]
  simp [Validator.accepts, hkey, Validator.Base.ofKind, hwidth]

/-- A bound that is not negative, and that no opening of the plain sample exceeds by its units while its
characters are within it. -/
def HoldsInUnits (name : String) (limit : Number) : Prop :=
  limit.lt (.int 0) = false ∧ ∀ u, u <+: ("sample_" ++ name).toList →
    limit.lt (.int u.length) = false → limit.lt (.int (Text.width u)) = false

theorem accepts_bound_upper {key : BoundKey} {limit : Number} (h : sampleFor r .string name = .ok v)
    (hr : r.kind = .bound key limit) (hkey : key.isLower = false) :
    (r.compile (.ofKind .string)).accepts isEmail v = true ↔ HoldsInUnits name limit := by
  obtain ⟨t, ht, rfl⟩ := sampleFor_bound_text h hr
  obtain ⟨hopening, hwithin, hmax⟩ := Sample.fitText_upper hkey ht
  have haccepts : (r.compile (.ofKind .string)).accepts isEmail (.text t) =
      !limit.lt (.int (Text.width t.toList)) := by
    rw [Rule.compile, appliesTo_bound hr (.inl rfl), hr]
    simp [Validator.accepts, hkey, Validator.Base.ofKind]
  rw [haccepts, Bool.not_eq_true']
  constructor
  · intro hwidth
    have hmono {n : Nat} (hn : n ≤ Text.width t.toList) : limit.lt (.int n) = false := by
      refine Bool.eq_false_iff.2 fun hlt => ?_
      rw [Number.lt_int_mono (by exact_mod_cast hn) hlt] at hwidth
      cases hwidth
    exact ⟨hmono (Nat.zero_le _), fun u hu hlen => hmono (Text.width_mono (hmax u hu hlen))⟩
  · rintro ⟨hzero, hall⟩
    rcases hwithin with hneg | hlen
    · rw [hzero] at hneg
      cases hneg
    · exact hall t.toList hopening hlen

/-- Only an upper bound of a text can be missed by its sample: when it is negative, or when a character of
two units comes within it. -/
theorem accepts_sample_iff (he : isEmail "test@example.com" = true) {f : Field} {m : Mapping}
    (h : ofField f = .ok m) :
    m.validator.accepts isEmail m.sample = true ↔
      ∀ key limit, FieldKind.ofToken f.typeName = .string → m.rule.kind = .bound key limit →
        key.isLower = false → HoldsInUnits f.name limit := by
  obtain ⟨hread, hsample, -, -, hvalidator⟩ := ofField_ok h
  rw [hvalidator]
  generalize FieldKind.ofToken f.typeName = k at hsample
  constructor
  · rintro ha key limit rfl hr hkey
    exact (accepts_bound_upper hsample hr hkey).1 ha
  · intro hall
    cases hr : m.rule.kind with
    | absent | unknown => exact accepts_ignored hsample (by rw [Rule.appliesTo, hr])
    | email => exact accepts_email he hsample hr
    | oneOf ls => exact accepts_oneOf hsample hr (Rule.read_oneOf_ne_nil hread hr)
    | bound key limit =>
        cases k with
        | string =>
            cases hkey : key.isLower with
            | true => exact accepts_bound_lower hsample hr hkey
            | false => exact (accepts_bound_upper hsample hr hkey).2 (hall key limit rfl hr hkey)
        | number => exact accepts_bound_number hsample hr
        | boolean | unknown => exact accepts_ignored hsample (by rw [Rule.appliesTo, hr]; rfl)

/-- A character of two units that is within the bound takes the sample beyond it. -/
theorem accepts_sample_iff_emoji :
    ∃ m, ofField ⟨"😀", "string", "maxlength=8"⟩ = .ok m ∧
      (m.validator.accepts (fun s => s.toList.contains '@') m.sample = true ↔
        ∀ key limit, FieldKind.ofToken "string" = .string → m.rule.kind = .bound key limit →
          key.isLower = false → HoldsInUnits "😀" limit) :=
  ⟨_, rfl, accepts_sample_iff (by decide +kernel) (f := ⟨"😀", "string", "maxlength=8"⟩) rfl⟩

theorem emoji_sample_rejected :
    ∃ m, ofField ⟨"😀", "string", "maxlength=8"⟩ = .ok m ∧ m.rule.kind = .bound .maxLength (.int 8) ∧
      ∀ isEmail, m.validator.accepts isEmail m.sample = false :=
  ⟨_, rfl, rfl, fun _ => rfl⟩

/-- Among characters of one unit only a negative bound is missed. -/
theorem holdsInUnits_iff_of_basic {name : String} {limit : Number}
    (h : ∀ c ∈ name.toList, c.toNat < 0x10000) :
    HoldsInUnits name limit ↔ limit.lt (.int 0) = false := by
  refine ⟨And.left, fun hzero => ⟨hzero, fun u hu hlen => ?_⟩⟩
  have hbasic : ∀ c ∈ u, c.toNat < 0x10000 := by
    intro c hc
    have hmem := hu.subset hc
    rw [String.toList_append, List.mem_append] at hmem
    rcases hmem with hmem | hmem
    · have hsample : ∀ c ∈ "sample_".toList, c.toNat < 0x10000 := by simp
      exact hsample c hmem
    · exact h c hmem
  rwa [Text.width_eq_length hbasic]

end Mapping

end ApiScaffold
