import ApiScaffold.Proofs.Field.Sample

namespace ApiScaffold

namespace Field

variable {f : Field} {r : Rule}

def HasLongNumeral (f : Field) : Prop := ∃ n, Rule.IsOverlong (Text.strip f.rule.toList) n

/-- The field is a text with a bound to which its plain sample cannot be fitted. -/
def HasUnfittableBound (f : Field) : Prop :=
  f.typeName = "string" ∧ ∃ key payload limit, Text.strip f.rule.toList = BoundKey.token key ++ '=' :: payload ∧
    Number.Denotes (Text.strip payload) limit ∧ Sample.Unfittable ("sample_" ++ f.name).length key limit

theorem not_hasLongNumeral (hr : Rule.read f.rule = .ok r) : ¬f.HasLongNumeral := by
  rintro ⟨n, hlong⟩
  rw [Rule.read_eq_error_iff.2 ⟨n, hlong, rfl⟩] at hr
  cases hr

theorem read_rule_ends (f : Field) :
    (∃ n, Rule.read f.rule = .error (.longNumeral n)) ∧ f.HasLongNumeral ∨
      (∃ r, Rule.read f.rule = .ok r) ∧ ¬f.HasLongNumeral := by
  cases hr : Rule.read f.rule with
  | error e =>
      obtain ⟨n, hlong, rfl⟩ := Rule.read_eq_error_iff.1 hr
      exact .inl ⟨⟨n, rfl⟩, n, hlong⟩
  | ok r => exact .inr ⟨⟨r, rfl⟩, not_hasLongNumeral hr⟩

theorem hasUnfittableBound_iff (hr : Rule.read f.rule = .ok r) :
    f.HasUnfittableBound ↔ f.typeName = "string" ∧ ∃ key limit, r.kind = .bound key limit ∧
      Sample.Unfittable ("sample_" ++ f.name).length key limit := by
  have hmeans := (Rule.read_eq_ok_iff.1 hr).1
  have hshort := not_hasLongNumeral hr
  refine and_congr_right fun _ => ⟨?_, ?_⟩
  · rintro ⟨key, payload, limit, hrule, hdenotes, hwidth⟩
    have hbound := (Rule.means_bound_iff hshort).2 ⟨payload, hrule, hdenotes⟩
    exact ⟨key, limit, hmeans.unique hbound, hwidth⟩
  · rintro ⟨key, limit, hkind, hwidth⟩
    rw [hkind] at hmeans
    obtain ⟨payload, hrule, hdenotes⟩ := (Rule.means_bound_iff hshort).1 hmeans
    exact ⟨key, payload, limit, hrule, hdenotes, hwidth⟩

end Field

namespace FieldKind

variable {token : String}

theorem ofToken_eq_string_iff : ofToken token = .string ↔ token = "string" := by
  unfold ofToken
  split_ifs <;> simp_all

theorem ofToken_eq_number_iff : ofToken token = .number ↔ token = "number" := by
  unfold ofToken
  split_ifs <;> simp_all

end FieldKind

namespace Mapping

variable {f : Field} {r : Rule} {key : BoundKey} {limit : Number} {m : Mapping}

theorem sampleFor_bound (hr : r.kind = .bound key limit) {k : FieldKind} (hk : k = .string ∨ k = .number)
    (name : String) : sampleFor r k name = (Sample.ofKind k name).fit key limit := by
  rw [sampleFor, appliesTo_bound hr hk, hr]
  rfl

theorem sampleFor_ok {k : FieldKind} (h : k ≠ .string ∨ ∀ key limit, r.kind ≠ .bound key limit) (name : String) :
    ∃ v, sampleFor r k name = .ok v := by
  rw [sampleFor]
  split_ifs
  · cases hr : r.kind with
    | absent | unknown | email | oneOf => exact ⟨_, rfl⟩
    | bound key limit =>
        cases k with
        | string => exact absurd hr (h.resolve_left (not_not_intro rfl) key limit)
        | number | boolean | unknown => exact ⟨_, rfl⟩
  · exact ⟨_, rfl⟩

/-- A field with a rule that is read makes a mapping, unless its sample cannot be fitted to a bound. -/
theorem ofField_fits (hr : Rule.read f.rule = .ok r) :
    (∃ m, ofField f = .ok m) ∧ ¬f.HasUnfittableBound ∨
      (ofField f = .error .infiniteWidth ∨ ofField f = .error .wideWidth) ∧ f.HasUnfittableBound := by
  rw [Field.hasUnfittableBound_iff hr, ofField_eq hr]
  by_cases htext : f.typeName = "string" ∧ ∃ key limit, r.kind = .bound key limit
  · obtain ⟨htype, key, limit, hkind⟩ := htext
    rw [FieldKind.ofToken_eq_string_iff.2 htype, sampleFor_bound hkind (.inl rfl), Sample.ofKind, Sample.fit]
    have hiff : (f.typeName = "string" ∧ ∃ key limit, r.kind = .bound key limit ∧
        Sample.Unfittable ("sample_" ++ f.name).length key limit) ↔
        Sample.Unfittable ("sample_" ++ f.name).length key limit := by
      simp [htype, hkind]
    rw [hiff]
    rcases Sample.fitText_ends ("sample_" ++ f.name) key limit with ⟨⟨t, ht⟩, hwidth⟩ | ⟨hfails | hfails, hwidth⟩
    · rw [ht]
      exact .inl ⟨⟨_, rfl⟩, hwidth⟩
    · rw [hfails]
      exact .inr ⟨.inl rfl, hwidth⟩
    · rw [hfails]
      exact .inr ⟨.inr rfl, hwidth⟩
  · have hkind : FieldKind.ofToken f.typeName ≠ .string ∨ ∀ key limit, r.kind ≠ .bound key limit := by
      rw [Ne, FieldKind.ofToken_eq_string_iff]
      by_contra h
      simp_all
    obtain ⟨v, hv⟩ := sampleFor_ok hkind f.name
    rw [hv]
    refine .inl ⟨⟨_, rfl⟩, ?_⟩
    rintro ⟨htype, key, limit, hkind, -⟩
    exact htext ⟨htype, key, limit, hkind⟩

/-- A field makes a mapping unless its rule has a number too long to be read or a bound that its sample cannot be fitted
to. -/
theorem ofField_raises (f : Field) :
    ((∃ n, ofField f = .error (.longNumeral n)) ↔ f.HasLongNumeral) ∧
      ((ofField f = .error .infiniteWidth ∨ ofField f = .error .wideWidth) ↔
        ¬f.HasLongNumeral ∧ f.HasUnfittableBound) ∧
      ((∃ m, ofField f = .ok m) ↔ ¬f.HasLongNumeral ∧ ¬f.HasUnfittableBound) := by
  rcases f.read_rule_ends with ⟨⟨n, hr⟩, hlong⟩ | ⟨⟨r, hr⟩, hshort⟩
  · simp [ofField_of_error hr, hlong]
  · rcases ofField_fits hr with ⟨⟨m, hm⟩, hfits⟩ | ⟨hfails | hfails, hwidth⟩
    · simp [hm, hshort, hfits]
    · simp [hfails, hshort, hwidth]
    · simp [hfails, hshort, hwidth]

/-- The sample of a number or a text with a bound is the plain one where the bound admits it, and else the nearest value
that it admits. -/
theorem sample_fitted (h : ofField f = .ok m) (hr : Rule.Means (Text.strip f.rule.toList) (.bound key limit)) :
    (f.typeName = "number" → m.sample = .number (if key.admits limit (.int 123) then .int 123 else limit)) ∧
      (f.typeName = "string" → ∃ t, m.sample = .text t ∧
        Sample.IsFitted key limit ("sample_" ++ f.name).toList t.toList) := by
  obtain ⟨hread, hsample, -, -, -⟩ := ofField_ok h
  have hkind : m.rule.kind = .bound key limit := (Rule.read_eq_ok_iff.1 hread).1.unique hr
  constructor
  · intro htype
    rw [htype, show FieldKind.ofToken "number" = .number from rfl, sampleFor_bound hkind (.inr rfl)] at hsample
    rw [← Sample.fitNumber_eq]
    exact (Except.ok.inj hsample).symm
  · intro htype
    rw [htype] at hsample
    obtain ⟨t, ht, hv⟩ := sampleFor_bound_text hsample hkind
    exact ⟨t, hv, Sample.fitText_isFitted ht⟩

/-- A text is padded to the whole number above the bound. -/
theorem title_sample_fitted :
    let limit : Number := .float (.nearest false (41 / 2))
    let m : Mapping := ⟨⟨"title", "string", "minlength=20.5"⟩, ⟨"minlength=20.5", .bound .minLength limit⟩, .string,
      .atLeast .string limit, .text "sample_titlexxxxxxxxx"⟩
    ofField m.field = .ok m ∧ Rule.Means (Text.strip m.field.rule.toList) (.bound .minLength limit) ∧
      (m.field.typeName = "number" →
        m.sample = .number (if BoundKey.minLength.admits limit (.int 123) then .int 123 else limit)) ∧
      (m.field.typeName = "string" → ∃ t, m.sample = .text t ∧
        Sample.IsFitted .minLength limit "sample_title".toList t.toList) := by
  intro limit m
  have hm : ofField m.field = .ok m := by decide +kernel
  have hrule : Text.strip m.field.rule.toList = BoundKey.minLength.token ++ '=' :: "20.5".toList := by decide +kernel
  have hmeans : Rule.Means (Text.strip m.field.rule.toList) (.bound .minLength limit) :=
    .bound hrule (by decide +kernel)
  exact ⟨hm, hmeans, sample_fitted hm hmeans⟩

end Mapping

end ApiScaffold
