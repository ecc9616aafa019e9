import ApiScaffold.Proofs.Field.Sample

namespace ApiScaffold

/-- A field as the entity, the schema, the validator and the requests show it. -/
structure Views where
  annotation : String
  schema : String
  validator : String
  sample : Sample

def Mapping.views (m : Mapping) : Views :=
  ⟨m.kind.staticType, m.kind.schemaExpression, m.validator.text, m.sample⟩

namespace Views

inductive Row
  | text | choice | number | truth | anything
  deriving DecidableEq, Repr

namespace Row

def ofToken : String → Row
  | "string" => text
  | "number" => number
  | "boolean" => truth
  | _ => anything

def ofRule (token : String) : Rule.Kind → Row
  | .oneOf _ => choice
  | _ => ofToken token

/-- The table. A validator may go on behind its opening where the row tells no more of it. -/
def Shows : Row → Views → Prop
  | text, v => v.annotation = "string" ∧ v.schema = "String" ∧
      (∃ refinement, v.validator = "z.string()" ++ refinement) ∧ ∃ s, v.sample = .text s
  | choice, v => v.annotation = "string" ∧ v.schema = "String" ∧
      (∃ literals, v.validator = "z.enum([" ++ literals) ∧ ∃ s, v.sample = .text s
  | number, v => v.annotation = "number" ∧ v.schema = "Number" ∧
      (∃ refinement, v.validator = "z.number()" ++ refinement) ∧ ∃ n, v.sample = .number n
  | truth, v => v.annotation = "boolean" ∧ v.schema = "Boolean" ∧ v.validator = "z.boolean()" ∧ v.sample = .yes
  | anything, v => v.annotation = "any" ∧ v.schema = "Schema.Types.Mixed" ∧ v.validator = "z.any()" ∧
      v.sample = .nothing

def ofKind : FieldKind → Row
  | .string => text
  | .number => number
  | .boolean => truth
  | .unknown => anything

theorem ofKind_ofToken (token : String) : ofKind (.ofToken token) = ofToken token := by
  unfold FieldKind.ofToken ofToken
  split
  next h =>
    rw [h]
    rfl
  next =>
    split
    next h =>
      rw [h]
      rfl
    next =>
      split
      next h =>
        rw [h]
        rfl
      next => simp_all [ofKind]

theorem Shows.eq {row row' : Row} {v : Views} (h : row.Shows v) (h' : row'.Shows v) : row = row' := by
  -- Where the annotations are the same, a text and an enumeration, the validators differ.
  have hopen : (∃ a, v.validator = "z.string()" ++ a) → ¬∃ b, v.validator = "z.enum([" ++ b := by
    rintro ⟨a, ha⟩ ⟨b, hb⟩
    have hlists := congrArg String.toList (ha.symm.trans hb)
    simp at hlists
  cases row <;> cases row' <;> first
    | rfl
    | exact absurd (h.1.symm.trans h'.1) (by decide)
    | exact absurd h'.2.2.1 (hopen h.2.2.1)
    | exact absurd h.2.2.1 (hopen h'.2.2.1)

end Row

variable {r : Rule} {k : FieldKind} {name : String} {v : Sample}

theorem shows_ignored (hv : Mapping.sampleFor r k name = .ok v) (hr : r.appliesTo (.ofKind k) = false) :
    (Row.ofKind k).Shows ⟨k.staticType, k.schemaExpression, (r.compile (.ofKind k)).text, v⟩ := by
  rw [Mapping.sampleFor, hr] at hv
  cases hv
  rw [Rule.compile, hr]
  cases k with
  | string => exact ⟨rfl, rfl, ⟨"", by rw [String.append_empty]; rfl⟩, _, rfl⟩
  | number => exact ⟨rfl, rfl, ⟨"", by rw [String.append_empty]; rfl⟩, _, rfl⟩
  | boolean => exact ⟨rfl, rfl, rfl, rfl⟩
  | unknown => exact ⟨rfl, rfl, rfl, rfl⟩

theorem shows_email (hv : Mapping.sampleFor r k name = .ok v) (hr : r.kind = .email) :
    (Row.ofKind k).Shows ⟨k.staticType, k.schemaExpression, (r.compile (.ofKind k)).text, v⟩ := by
  cases k with
  | string =>
      have happ : r.appliesTo (.ofKind .string) = true := by rw [Rule.appliesTo, hr]; rfl
      rw [Mapping.sampleFor, happ, hr] at hv
      cases hv
      rw [Rule.compile, happ, hr]
      exact ⟨rfl, rfl, ⟨".email()", rfl⟩, _, rfl⟩
  | number | boolean | unknown => exact shows_ignored hv (by rw [Rule.appliesTo, hr]; rfl)

theorem text_bound {key : BoundKey} {limit : Number} (hr : r.kind = .bound key limit)
    (happ : r.appliesTo (.ofKind k) = true) :
    ∃ refinement, (r.compile (.ofKind k)).text = (Validator.Base.ofKind k).text ++ refinement := by
  rw [Rule.compile, if_pos happ, hr]
  cases hkey : key.isLower with
  | true => exact ⟨".min(" ++ (limit.text ++ ")"), by simp [hkey, Validator.text, String.append_assoc]⟩
  | false => exact ⟨".max(" ++ (limit.text ++ ")"), by simp [hkey, Validator.text, String.append_assoc]⟩

theorem shows_bound {key : BoundKey} {limit : Number} (hv : Mapping.sampleFor r k name = .ok v)
    (hr : r.kind = .bound key limit) :
    (Row.ofKind k).Shows ⟨k.staticType, k.schemaExpression, (r.compile (.ofKind k)).text, v⟩ := by
  cases k with
  | string =>
      obtain ⟨s, -, rfl⟩ := Mapping.sampleFor_bound_text hv hr
      exact ⟨rfl, rfl, text_bound hr (Mapping.appliesTo_bound hr (.inl rfl)), s, rfl⟩
  | number =>
      have happ : r.appliesTo (.ofKind .number) = true := Mapping.appliesTo_bound hr (.inr rfl)
      have htext := text_bound hr happ
      rw [Mapping.sampleFor, happ, hr] at hv
      cases hv
      exact ⟨rfl, rfl, htext, _, rfl⟩
  | boolean | unknown => exact shows_ignored hv (by rw [Rule.appliesTo, hr]; rfl)

theorem shows_choice {ls : List String} (hv : Mapping.sampleFor r k name = .ok v) (hr : r.kind = .oneOf ls) :
    Row.choice.Shows ⟨FieldKind.string.staticType, FieldKind.string.schemaExpression,
      (r.compile (.ofKind k)).text, v⟩ := by
  have happ : r.appliesTo (.ofKind k) = true := by rw [Rule.appliesTo, hr]
  rw [Mapping.sampleFor, happ, hr] at hv
  cases hv
  rw [Rule.compile, happ, hr]
  refine ⟨rfl, rfl, ⟨", ".intercalate (ls.map Json.quote) ++ "])", ?_⟩, _, rfl⟩
  simp only [if_true, Validator.text, Validator.enumText, String.append_assoc]

theorem shows_plain (hv : Mapping.sampleFor r k name = .ok v) (hr : ∀ ls, r.kind ≠ .oneOf ls) :
    (Row.ofKind k).Shows ⟨k.staticType, k.schemaExpression, (r.compile (.ofKind k)).text, v⟩ := by
  cases hkind : r.kind with
  | absent | unknown => exact shows_ignored hv (by rw [Rule.appliesTo, hkind])
  | email => exact shows_email hv hkind
  | bound key limit => exact shows_bound hv hkind
  | oneOf ls => exact absurd hkind (hr ls)

theorem shows_ofField {f : Field} {m : Mapping} (h : Mapping.ofField f = .ok m) :
    (Row.ofRule f.typeName m.rule.kind).Shows m.views := by
  obtain ⟨-, hsample, -, hkind, hvalidator⟩ := Mapping.ofField_ok h
  rw [Mapping.views, hkind, hvalidator]
  by_cases hr : ∃ ls, m.rule.kind = .oneOf ls
  · obtain ⟨ls, hr⟩ := hr
    rw [Mapping.kindFor, hr]
    exact shows_choice hsample hr
  · rw [not_exists] at hr
    have hplain := shows_plain hsample hr
    rw [Row.ofKind_ofToken] at hplain
    rw [Mapping.kindFor, Row.ofRule]
    · split
      next ls hls => exact absurd hls (hr ls)
      next => exact hplain
    · exact hr

/-- The views of a mapping make up one row: that of an enumeration when the rule is read as one, whatever the type,
and that of the type's word otherwise. -/
theorem shows_views_iff {f : Field} {m : Mapping} (h : Mapping.ofField f = .ok m) :
    ∃ r, Rule.read f.rule = .ok r ∧ ∀ row : Row, row.Shows m.views ↔ row = .ofRule f.typeName r.kind := by
  obtain ⟨hread, -⟩ := Mapping.ofField_ok h
  refine ⟨m.rule, hread, fun row => ⟨fun hrow => hrow.eq (shows_ofField h), ?_⟩⟩
  rintro rfl
  exact shows_ofField h

/-- An enumeration of a number's type. -/
theorem shows_views_iff_method : ∃ m, Mapping.ofField ⟨"method", "number", "enum=credit|debit"⟩ = .ok m ∧
    ∃ r, Rule.read "enum=credit|debit" = .ok r ∧
      ∀ row : Row, row.Shows m.views ↔ row = .ofRule "number" r.kind :=
  ⟨_, rfl, shows_views_iff (f := ⟨"method", "number", "enum=credit|debit"⟩) rfl⟩

end Views

end ApiScaffold
