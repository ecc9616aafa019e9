import ApiScaffold.Proofs.Feature.Warnings
import ApiScaffold.Proofs.Project.Emission
import ApiScaffold.Proofs.TypeScript.Schema

namespace ApiScaffold

open TypeScript Text Identifier

namespace Rule

theorem appliesTo_any_iff (r : Rule) : r.appliesTo .any = true ↔ ∃ ls, r.kind = .oneOf ls := by
  rw [appliesTo]
  cases r.kind <;> simp

theorem prefix_text_compile (r : Rule) (k : FieldKind) :
    (Validator.Base.ofKind k).text.toList <+: (r.compile (.ofKind k)).text.toList ∨
      "z.enum([".toList <+: (r.compile (.ofKind k)).text.toList := by
  have hbegins (s t : String) : s.toList <+: (s ++ t).toList := ⟨t.toList, String.toList_append.symm⟩
  rcases r.text_compile_cases k with h | ⟨opening, -, argument, -, h⟩ | ⟨ls, h⟩ <;> rw [h]
  · exact .inl (List.prefix_refl _)
  · rw [String.append_assoc, String.append_assoc]
    exact .inl (hbegins _ _)
  · rw [Validator.enumText, String.append_assoc]
    exact .inr (hbegins _ _)

theorem text_compile_any_iff (r : Rule) (k : FieldKind) :
    (r.compile (.ofKind k)).text = "z.any()" ↔ k = .unknown ∧ r.appliesTo .any = false := by
  by_cases hk : k = .unknown
  · subst hk
    rw [and_iff_right rfl]
    exact r.text_compile_eq_iff .unknown
  · refine iff_of_false (fun h => ?_) (hk ·.1)
    have hprefix := r.prefix_text_compile k
    rw [h] at hprefix
    cases k with
    | unknown => exact hk rfl
    | string | number | boolean => exact absurd hprefix (by decide)

theorem compile_any_iff (r : Rule) (k : FieldKind) :
    r.compile (.ofKind k) = .plain .any ↔ (r.compile (.ofKind k)).text = "z.any()" := by
  refine ⟨fun h => by rw [h]; rfl, fun h => ?_⟩
  obtain ⟨rfl, hidle⟩ := (r.text_compile_any_iff k).1 h
  have happ : r.appliesTo (.ofKind .unknown) = false := hidle
  rw [compile, happ]
  rfl

end Rule

/-- A field that an empty request cannot leave out: of a known type, or with an enumeration for a rule. -/
def Field.IsDemanding (g : Field) : Prop :=
  g.typeName ∈ ["string", "number", "boolean"] ∨ ∃ r ls, Rule.read g.rule = .ok r ∧ r.kind = .oneOf ls

namespace Mapping

variable {g : Field} {m : Mapping} {ms : List Mapping}

theorem text_any_iff (h : ofField g = .ok m) : m.validator.text = "z.any()" ↔ ¬g.IsDemanding := by
  obtain ⟨hread, -, -, -, hvalidator⟩ := ofField_ok h
  have hrule : (∃ r ls, Rule.read g.rule = .ok r ∧ r.kind = .oneOf ls) ↔ m.rule.appliesTo .any = true := by
    rw [Rule.appliesTo_any_iff]
    constructor
    · rintro ⟨r, ls, hr, hkind⟩
      obtain rfl := Except.ok.inj (hread.symm.trans hr)
      exact ⟨ls, hkind⟩
    · rintro ⟨ls, hkind⟩
      exact ⟨m.rule, ls, hread, hkind⟩
  rw [hvalidator, Rule.text_compile_any_iff, Feature.ofToken_eq_unknown_iff, Field.IsDemanding, hrule, not_or,
    Bool.not_eq_true]

theorem isRequired_iff (h : ofField g = .ok m) : FeatureDocument.isRequired m = true ↔ g.IsDemanding := by
  have hany := text_any_iff h
  obtain ⟨-, -, -, -, hvalidator⟩ := ofField_ok h
  rw [hvalidator, ← Rule.compile_any_iff, ← hvalidator] at hany
  rw [FeatureDocument.isRequired, bne_iff_ne, Ne, hany, not_not]

theorem ofField_field {fs : List Field} (h : fs.map ofField = ms.map .ok) : ∀ m ∈ ms, ofField m.field = .ok m := by
  intro m hm
  have hmem : (.ok m : Except Failure Mapping) ∈ fs.map ofField := h ▸ List.mem_map_of_mem hm
  obtain ⟨g, -, hg⟩ := List.mem_map.1 hmem
  rwa [(ofField_ok hg).2.2.1]

theorem map_field {fs : List Field} (h : fs.map ofField = ms.map .ok) : ms.map field = fs := by
  induction fs generalizing ms with
  | nil =>
      rw [List.map_eq_nil_iff.1 h.symm]
      rfl
  | cons g fs ih =>
      cases ms with
      | nil => cases h
      | cons m ms =>
          obtain ⟨hm, hms⟩ := List.cons.inj h
          rw [List.map_cons, ih hms, (ofField_ok hm).2.2.1]

end Mapping

namespace FeatureDocument

def badRequestLines (name : String) (s : Settings) : List String := [
  "",
  "  it('should return 400 for invalid input', async () => \x7b",
  "    const invalidDto = \x7b\x7d;",
  "",
  "    const response = await request(app)",
  "      .post('" ++ s.route name ++ "')",
  "      .send(invalidDto)",
  "      .set('Accept', 'application/json');",
  "",
  "    expect(response.status).toBe(400);",
  "    expect(response.body.message).toContain('is required');",
  "  \x7d);"]

variable (name phrase : String) (s : Settings) (ms : List Mapping)

theorem indent_badRequestCase : indent (FeatureModule.badRequestCase (sheet name phrase s ms)) =
    if ms.any isRequired then badRequestLines name s else [] := by
  have hrequired : (sheet name phrase s ms).hasRequired = ms.any isRequired := rfl
  rw [FeatureModule.badRequestCase, hrequired]
  split
  · simp [indent, FeatureModule.testCase, block, chain, FeatureModule.posted, noBody, badRequestLines, sheet_route,
      toString, ← String.append_assoc]
  · rfl

theorem controllerTest_end : ∃ before, Module.lines (controllerTest.module (sheet name phrase s ms)) =
    before ++ ["    expect(mockUseCase.execute).toHaveBeenCalledWith(dto);", "  \x7d);"] ++
      (if ms.any isRequired then badRequestLines name s else []) ++ ["\x7d);"] := by
  rw [← indent_badRequestCase name phrase]
  simp only [module, FeatureModule.controllerTest, Module.lines, List.flatMap_cons, List.flatMap_nil, Statement.lines,
    block, chain, FeatureModule.testCase, indent_append, List.append_nil, ← List.append_assoc, ← List.cons_append,
    List.append_cons _ _ ["  \x7d);"]]
  exact ⟨_, rfl⟩

def middlewareText (name schema rest : String) : String :=
  linesText ["import \x7b Request, Response, NextFunction \x7d from 'express';", "import \x7b z \x7d from 'zod';", "",
    "const " ++ name ++ "Schema = " ++ schema ++ ";", ""] ++ "export const validate" ++ rest

theorem middleware_schema : ∃ rest,
    (middleware.module (sheet name phrase s ms)).text = middlewareText name (Mapping.schema "  " ms) rest := by
  have htake : (Module.lines (middleware.module (bare name phrase s true))).take 3 =
      ["import \x7b Request, Response, NextFunction \x7d from 'express';", "import \x7b z \x7d from 'zod';", ""] := rfl
  obtain ⟨lines, hdrop⟩ : ∃ lines, (Module.lines (middleware.module (bare name phrase s true))).drop 4 =
      "" :: ("export " ++ "const" ++ " " ++ ("validate" ++ Text.capitalize name) ++
        " = (req: Request, res: Response, next: NextFunction) => \x7b") :: lines := ⟨_, rfl⟩
  have hopen : "Schema = " = "Schema" ++ " = " := rfl
  have hexport : "export const validate" = "export " ++ "const" ++ " " ++ "validate" := rfl
  refine ⟨Text.capitalize name ++ (" = (req: Request, res: Response, next: NextFunction) => \x7b" ++
    ("\n" ++ linesText lines)), ?_⟩
  rw [Module.text, middleware_lines name phrase s ms true, hdrop, htake, middlewareText, hopen, hexport]
  simp only [linesText_cons, String.append_assoc, List.cons_append, List.nil_append]
  rfl

end FeatureDocument

namespace Feature

open FeatureDocument

variable {f : Feature} {s : Settings} {ds : List Document}

/-- There is a property that an empty request cannot leave out, for its last field is demanding. No field makes one of
`__proto__`. -/
def HasDemandedProperty (f : Feature) : Prop :=
  ∃ before g after, f.fields = before ++ g :: after ∧ g.IsDemanding ∧ denoted g.name ≠ "__proto__" ∧
    ∀ x ∈ after, denoted x.name ≠ denoted g.name

theorem map_field_mappings (h : f.Maps) : f.mappings.map Mapping.field = f.fields :=
  Mapping.map_field (Mapping.ofFields_ok h.ofFields_eq)

theorem ofField_mappings (h : f.Maps) : ∀ m ∈ f.mappings, Mapping.ofField m.field = .ok m :=
  Mapping.ofField_field (Mapping.ofFields_ok h.ofFields_eq)

/-- The entries of the schema are those of the fields, and so is what they demand. -/
theorem demandsAny_mappings (h : f.Maps) :
    demandsAny (f.mappings.map Mapping.entry) = true ↔ f.HasDemandedProperty := by
  rw [demandsAny_iff, HasDemandedProperty, ← map_field_mappings h]
  constructor
  · rintro ⟨before, e, after, hes, hproto, hany, hafter⟩
    obtain ⟨as, rest, hms, rfl, hrest⟩ := List.map_eq_append_iff.1 hes
    obtain ⟨m, bs, rfl, rfl, rfl⟩ := List.map_eq_cons_iff.1 hrest
    have hdemanding : m.field.IsDemanding :=
      not_not.1 ((Mapping.text_any_iff (ofField_mappings h m (by rw [hms]; simp))).not.1 hany)
    refine ⟨as.map Mapping.field, m.field, bs.map Mapping.field, by rw [hms]; simp, hdemanding, hproto, ?_⟩
    exact List.forall_mem_map.2 fun x hx => hafter _ (List.mem_map_of_mem hx)
  · rintro ⟨before, g, after, hes, hdemanding, hproto, hafter⟩
    obtain ⟨as, rest, hms, rfl, hrest⟩ := List.map_eq_append_iff.1 hes
    obtain ⟨m, bs, rfl, rfl, rfl⟩ := List.map_eq_cons_iff.1 hrest
    have hany : m.validator.text ≠ "z.any()" :=
      (Mapping.text_any_iff (ofField_mappings h m (by rw [hms]; simp))).not.2 (not_not.2 hdemanding)
    refine ⟨as.map Mapping.entry, m.entry, bs.map Mapping.entry, by rw [hms]; simp, hproto, hany, ?_⟩
    exact List.forall_mem_map.2 fun x hx => hafter _ (List.mem_map_of_mem hx)

theorem any_isRequired_iff (h : f.Maps) :
    f.mappings.any isRequired = true ↔ ∃ g ∈ f.fields, g.IsDemanding := by
  rw [List.any_eq_true, ← map_field_mappings h]
  constructor
  · rintro ⟨m, hm, hrequired⟩
    exact ⟨m.field, List.mem_map_of_mem hm, (Mapping.isRequired_iff (ofField_mappings h m hm)).1 hrequired⟩
  · rintro ⟨g, hg, hdemanding⟩
    obtain ⟨m, hm, rfl⟩ := List.mem_map.1 hg
    exact ⟨m, hm, (Mapping.isRequired_iff (ofField_mappings h m hm)).2 hdemanding⟩

theorem mem_output (d : FeatureDocument) (f : Feature) (s : Settings) :
    ⟨d.path f.name, (d.module (FeatureDocument.sheet f.name (Text.withArticle f.name) s f.mappings)).text⟩ ∈
      f.output s :=
  List.mem_map_of_mem (f := FeatureDocument.document _) (by cases d <;> decide)

/-- The test ends with the case of an empty request just when a field is demanding; else it ends with another case. -/
theorem badRequest_suffix_iff (h : f.Maps) (phrase : String) (s : Settings) :
    (linesText (badRequestLines f.name s ++ ["\x7d);"])).toList <:+
      (controllerTest.module (FeatureDocument.sheet f.name phrase s f.mappings)).text.toList ↔
        ∃ g ∈ f.fields, g.IsDemanding := by
  obtain ⟨before, hlines⟩ := controllerTest_end f.name phrase s f.mappings
  have hsuffix (as bs : List String) : (linesText bs).toList <:+ (linesText (as ++ bs)).toList := by
    rw [linesText_append, String.toList_append]
    exact List.suffix_append _ _
  rw [← any_isRequired_iff h, Module.text, hlines]
  split
  next hrequired =>
    refine iff_of_true ?_ hrequired
    rw [List.append_assoc]
    exact hsuffix _ _
  next hrequired =>
    refine iff_of_false (fun hcase => ?_) hrequired
    rw [List.append_nil, List.append_assoc] at hcase
    have hgood := hsuffix before
      (["    expect(mockUseCase.execute).toHaveBeenCalledWith(dto);", "  \x7d);"] ++ ["\x7d);"])
    have hbad := (hsuffix ((badRequestLines f.name s).take 10)
      (["    expect(response.body.message).toContain('is required');", "  \x7d);"] ++ ["\x7d);"])).trans hcase
    exact absurd (List.suffix_or_suffix_of_suffix hgood hbad) (by decide +kernel)

theorem refusesEmpty?_mappings (h : f.Maps) (hproto : (f.fields.map fun g => denoted g.name).count "__proto__" ≤ 1) :
    ∃ b, refusesEmpty? (Mapping.schema "  " f.mappings).toList = some b ∧ (b = true ↔ f.HasDemandedProperty) := by
  have hnames : (f.mappings.map fun m => denoted m.name) = f.fields.map fun g => denoted g.name := by
    rw [← map_field_mappings h, List.map_map]
    rfl
  refine ⟨_, ?_, demandsAny_mappings h⟩
  rw [Mapping.refusesEmpty?_schema fun m hm => ⟨m.field, ofField_mappings h m hm⟩, hnames, if_pos hproto]

theorem hasDemandedProperty_iff (hnames : (f.fields.map Field.name).Nodup)
    (hplain : ∀ g ∈ f.fields, g.name ≠ "__proto__" ∧ '\n' ∉ g.name.toList.getLast?) :
    f.HasDemandedProperty ↔ ∃ g ∈ f.fields, g.IsDemanding := by
  constructor
  · rintro ⟨before, g, after, hfields, hdemanding, -⟩
    exact ⟨g, by rw [hfields]; simp, hdemanding⟩
  · rintro ⟨g, hg, hdemanding⟩
    obtain ⟨before, after, hfields⟩ := List.append_of_mem hg
    have hself (x : Field) (hx : x ∈ f.fields) : denoted x.name = x.name := denoted_eq_self (hplain x hx).2
    refine ⟨before, g, after, hfields, hdemanding, ?_, fun x hx => ?_⟩
    · rw [hself g hg]
      exact (hplain g hg).1
    · rw [hself g hg, hself x (by rw [hfields]; simp [hx])]
      rw [hfields, List.map_append, List.map_cons] at hnames
      intro heq
      exact (List.nodup_cons.1 (List.nodup_append.1 hnames).2.1).1 (heq ▸ List.mem_map_of_mem hx)

/-- The case of an empty request is tested just when a field is demanding. Whether the schema refuses that request
depends on which fields make properties of their own, and is the same wherever names are distinct, end in no line break
and are not `__proto__`. -/
theorem badRequest_iff (h : f.documents s = .ok ds) : ∃ test schema rest,
    ⟨controllerTest.path f.name, test⟩ ∈ ds ∧ ⟨middleware.path f.name, middlewareText f.name schema rest⟩ ∈ ds ∧
      ((linesText (badRequestLines f.name s ++ ["\x7d);"])).toList <:+ test.toList ↔
        ∃ g ∈ f.fields, g.IsDemanding) ∧
      ((f.fields.map fun g => denoted g.name).count "__proto__" ≤ 1 →
        ∃ b, refusesEmpty? schema.toList = some b ∧ (b = true ↔ f.HasDemandedProperty)) ∧
      ((f.fields.map Field.name).Nodup → (∀ g ∈ f.fields, g.name ≠ "__proto__" ∧ '\n' ∉ g.name.toList.getLast?) →
        ∃ b, refusesEmpty? schema.toList = some b ∧ (b = true ↔ ∃ g ∈ f.fields, g.IsDemanding)) := by
  obtain ⟨hmaps, -, rfl⟩ := documents_eq_ok.1 h
  obtain ⟨rest, hrest⟩ := middleware_schema f.name (Text.withArticle f.name) s f.mappings
  have htest := mem_output controllerTest f s
  have hmiddleware := mem_output middleware f s
  rw [hrest] at hmiddleware
  refine ⟨_, _, rest, htest, hmiddleware, badRequest_suffix_iff hmaps _ s, refusesEmpty?_mappings hmaps,
    fun hnames hplain => ?_⟩
  have hcount : (f.fields.map fun g => denoted g.name).count "__proto__" ≤ 1 := by
    rw [List.count_eq_zero_of_not_mem]
    · exact Nat.zero_le 1
    · intro hmem
      obtain ⟨g, hg, hproto⟩ := List.mem_map.1 hmem
      rw [denoted_eq_self (hplain g hg).2] at hproto
      exact (hplain g hg).1 hproto
  obtain ⟨b, hb, hiff⟩ := refusesEmpty?_mappings hmaps hcount
  exact ⟨b, hb, hiff.trans (hasDemandedProperty_iff hnames hplain)⟩

/-- A field of no known type with an enumeration, beside one that may be missing. -/
theorem badRequest_iff_choice : ∃ ds test schema rest,
    documents ⟨"user", [⟨"first-name", "date", "enum=a|b"⟩, ⟨"age", "", "min=1"⟩]⟩ .standard = .ok ds ∧
      ⟨"__tests__/Features/user/user.controller.test.ts", test⟩ ∈ ds ∧
      ⟨"Features/user/delivery/middlewares/validate-user.middleware.ts", middlewareText "user" schema rest⟩ ∈ ds ∧
      (linesText (badRequestLines "user" .standard ++ ["\x7d);"])).toList <:+ test.toList ∧
      refusesEmpty? schema.toList = some true := by
  obtain ⟨test, schema, rest, htest, hmiddleware, hcase, -, hschema⟩ :=
    badRequest_iff (f := ⟨"user", [⟨"first-name", "date", "enum=a|b"⟩, ⟨"age", "", "min=1"⟩]⟩) (s := .standard) rfl
  have hdemanding : ∃ g ∈ [(⟨"first-name", "date", "enum=a|b"⟩ : Field), ⟨"age", "", "min=1"⟩], g.IsDemanding :=
    ⟨_, List.mem_cons_self, .inr ⟨_, ["a", "b"], rfl, rfl⟩⟩
  obtain ⟨b, hb, hiff⟩ := hschema (by decide) (by decide)
  rw [hiff.2 hdemanding] at hb
  exact ⟨_, test, schema, rest, rfl, htest, hmiddleware, hcase.2 hdemanding, hb⟩

/-- What a schema gives for `__proto__` is no property, so that it lets the empty request of the case pass. -/
theorem proto_let_pass : ∃ ds test rest,
    documents ⟨"user", [⟨"__proto__", "string", ""⟩]⟩ .standard = .ok ds ∧
      ⟨"__tests__/Features/user/user.controller.test.ts", test⟩ ∈ ds ∧
      (linesText (badRequestLines "user" .standard ++ ["\x7d);"])).toList <:+ test.toList ∧
      ⟨"Features/user/delivery/middlewares/validate-user.middleware.ts",
        middlewareText "user" "z.object(\x7b\n  __proto__: z.string(),\n\x7d)" rest⟩ ∈ ds ∧
      refusesEmpty? "z.object(\x7b\n  __proto__: z.string(),\n\x7d)".toList = some false := by
  have hmaps : Maps ⟨"user", [⟨"__proto__", "string", ""⟩]⟩ := ⟨_, rfl⟩
  obtain ⟨rest, hrest⟩ := middleware_schema "user" (Text.withArticle "user") .standard
    (mappings ⟨"user", [⟨"__proto__", "string", ""⟩]⟩)
  have hcase := badRequest_suffix_iff hmaps (Text.withArticle "user") .standard
  have hmiddleware := mem_output middleware ⟨"user", [⟨"__proto__", "string", ""⟩]⟩ .standard
  rw [hrest] at hmiddleware
  refine ⟨_, _, rest, documents_eq_ok.2 ⟨hmaps, by decide, rfl⟩, mem_output controllerTest _ .standard,
    hcase.2 ⟨_, List.mem_cons_self, .inl (by decide)⟩, hmiddleware, by decide +kernel⟩

end Feature

end ApiScaffold
