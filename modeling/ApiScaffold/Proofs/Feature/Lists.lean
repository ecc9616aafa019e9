import ApiScaffold.Feature.Documents
import ApiScaffold.Proofs.Text.Lines

namespace ApiScaffold

open TypeScript Text

namespace FeatureDocument

def listing (opening : String) (item : Mapping → String) (closing : String) (ms : List Mapping) :
    List String :=
  opening :: ms.map item ++ [closing]

def typed (m : Mapping) : String := "  " ++ m.key ++ ": " ++ m.kind.staticType ++ ";"

def accessor (object : String) (m : Mapping) : String := object ++ m.member

def construction (name : String) (ms : List Mapping) : String :=
  "    const " ++ name ++ " = new " ++ Text.capitalize name ++ "('123', " ++
    ", ".intercalate (ms.map (accessor "dto")) ++ ");"

def typedRequest (name : String) (ms : List Mapping) : String :=
  "    const dto: Create" ++ Text.capitalize name ++ "Dto = " ++ Mapping.sampleJson ms ++ ";"

/-- The parts of a document that show the fields, in their order. -/
def lists (d : FeatureDocument) (name : String) (ms : List Mapping) : List (List String) :=
  match d with
  | entity => [listing "    public id: string,"
      (fun m => "    public " ++ m.name ++ ": " ++ m.kind.staticType ++ ",") "  ) \x7b\x7d" ms]
  | useCase => [
      listing ("export interface Create" ++ Text.capitalize name ++ "Dto \x7b") typed "\x7d" ms,
      listing "      Math.random().toString(36).substring(2),"
        (fun m => "      " ++ accessor "dto" m ++ ",") "    );" ms]
  | model => [
      listing "  id: string;" typed "\x7d" ms,
      listing ("  id: " ++ braces "type: String, required: true, unique: true" ++ ",")
        (fun m => "  " ++ m.key ++ ": " ++
          braces ("type: " ++ m.kind.schemaExpression ++ ", required: true") ++ ",")
        "\x7d);" ms]
  | dataSource => [listing ("        " ++ name ++ "Doc.id,")
      (fun m => "        " ++ accessor (name ++ "Doc") m ++ ",") "      ));" ms]
  | middleware => [listing ("const " ++ name ++ "Schema = z.object(\x7b")
      (fun m => "  " ++ m.key ++ ": " ++ m.validator.text ++ ",") "\x7d);" ms]
  | useCaseTest => [[typedRequest name ms, construction name ms], [typedRequest name ms]]
  | controllerTest => [
      ["    const dto = " ++ Mapping.sampleJson ms ++ ";", construction name ms],
      listing "      id: '123'," (fun m => "      " ++ m.key ++ ": " ++ accessor "dto" m ++ ",")
        "    \x7d);" ms]
  | container | repositoryInterface | repository | controller => []

/-- Fixed lines and lists by turns. -/
def weave : List (List String) → List (List String) → List String
  | [], ls => ls.flatten
  | g :: gs, [] => g ++ gs.flatten
  | g :: gs, l :: ls => g ++ l ++ weave gs ls

def sheet (name phrase : String) (s : Settings) (ms : List Mapping) : FeatureSheet :=
  .ofMappings name phrase ms s

/-- Whether an empty request can be refused. -/
def isRequired (m : Mapping) : Bool := m.validator != .plain .any

def bare (name phrase : String) (s : Settings) (required : Bool) : FeatureSheet :=
  { sheet name phrase s [] with hasRequired := required }

def gaps (t : FeatureSheet) (d : FeatureDocument) : List (List String) :=
  let ls := Module.lines (d.module t)
  match d with
  | entity => [ls.take 2, ls.drop 4]
  | useCase => [ls.take 6, (ls.drop 8).take 7, ls.drop 17]
  | model => [ls.take 3, (ls.drop 5).take 2, ls.drop 9]
  | dataSource => [ls.take 23, ls.drop 25]
  | middleware => [ls.take 3, ls.drop 4]
  | useCaseTest => [ls.take 20, (ls.drop 22).take 9, ls.drop 32]
  | controllerTest => [ls.take 29, (ls.drop 31).take 9, ls.drop 42]
  | container | repositoryInterface | repository | controller => [ls]

theorem indent_nil : indent [] = [] := rfl

theorem indent_gap (ls : List String) : indent ("" :: ls) = "" :: indent ls := rfl

theorem indent_cons {l : String} (h : l ≠ "") (ls : List String) :
    indent (l :: ls) = ("  " ++ l) :: indent ls := by
  rw [indent, List.map_cons, if_neg h]
  rfl

theorem indent_append (ls ms : List String) : indent (ls ++ ms) = indent ls ++ indent ms := List.map_append

theorem indent_map {α : Type} {g : α → String} (h : ∀ a, g a ≠ "") (as : List α) :
    indent (as.map g) = as.map fun a => "  " ++ g a := by
  rw [indent, List.map_map]
  exact List.map_congr_left fun a _ => if_neg (h a)

theorem intercalate_concat (ls : List String) (l : String) :
    "\n".intercalate (ls ++ [l]) = linesText ls ++ l := by
  induction ls with
  | nil => simp [linesText]
  | cons a ls ih =>
      cases ls with
      | nil => simp [linesText]
      | cons b ls =>
          rw [List.cons_append, List.cons_append, String.intercalate_cons_cons, ← List.cons_append, ih,
            linesText_cons a]
          simp only [String.append_assoc]

section Sheets

variable (name phrase : String) (s : Settings) (ms : List Mapping) (required : Bool)

theorem sheet_name : (sheet name phrase s ms).name = name := rfl

theorem sheet_className : (sheet name phrase s ms).className = Text.capitalize name := rfl

theorem sheet_useCase : (sheet name phrase s ms).useCase = Identifier.useCaseClass name := rfl

theorem sheet_fields : (sheet name phrase s ms).fields = ms.map FieldSheet.ofMapping := rfl

theorem sheet_sample : (sheet name phrase s ms).sample = Mapping.sampleJson ms := rfl

theorem sheet_route : (sheet name phrase s ms).route = s.route name := rfl

theorem sheet_article : (sheet name phrase s ms).article = phrase := rfl

theorem sheet_testId : (sheet name phrase s ms).testId = "123" := rfl

theorem bare_name : (bare name phrase s required).name = name := rfl

theorem bare_className : (bare name phrase s required).className = Text.capitalize name := rfl

theorem bare_useCase : (bare name phrase s required).useCase = Identifier.useCaseClass name := rfl

theorem bare_fields : (bare name phrase s required).fields = [] := rfl

theorem bare_route : (bare name phrase s required).route = s.route name := rfl

theorem bare_article : (bare name phrase s required).article = phrase := rfl

theorem bare_testId : (bare name phrase s required).testId = "123" := rfl

theorem typedMembers_sheet : FeatureModule.typedMembers (sheet name phrase s ms) =
    ms.map fun m => m.key ++ ": " ++ m.kind.staticType ++ ";" := List.map_map

theorem typedMembers_bare : FeatureModule.typedMembers (bare name phrase s required) = [] := rfl

theorem accesses_sheet (object : String) : FeatureModule.accesses object (sheet name phrase s ms) =
    ms.map fun m => accessor object m ++ "," := List.map_map

theorem accesses_bare (object : String) :
    FeatureModule.accesses object (bare name phrase s required) = [] := rfl

theorem promised_eq (t : FeatureSheet) :
    FeatureModule.promised t = "Promise<Result<" ++ t.className ++ ", CustomError>>" := rfl

theorem promisedOrNull_eq (t : FeatureSheet) :
    FeatureModule.promisedOrNull t = "Promise<Result<" ++ t.className ++ " | null, CustomError>>" := rfl

theorem builtEntity_eq (t : FeatureSheet) : FeatureModule.builtEntity t =
    "const " ++ t.name ++ " = new " ++ t.className ++ "('" ++ t.testId ++ "', " ++
      ", ".intercalate (t.fields.map fun f => "dto" ++ f.member) ++ ");" := rfl

theorem builtEntity_sheet : FeatureModule.builtEntity (sheet name phrase s ms) =
    "const " ++ name ++ " = new " ++ Text.capitalize name ++ "('123', " ++
      ", ".intercalate (ms.map (accessor "dto")) ++ ");" := by
  have hargs : ((sheet name phrase s ms).fields.map fun f => "dto" ++ f.member) = ms.map (accessor "dto") :=
    List.map_map
  rw [builtEntity_eq, hargs, sheet_testId]
  simp only [String.append_assoc, String.reduceAppend, sheet_name, sheet_className]

theorem builtEntity_bare : FeatureModule.builtEntity (bare name phrase s required) =
    FeatureModule.builtEntity (sheet name phrase s []) := rfl

theorem badRequestCase_sheet : FeatureModule.badRequestCase (sheet name phrase s ms) =
    FeatureModule.badRequestCase (bare name phrase s (ms.any isRequired)) := rfl

theorem typed_eq : typed = fun m => "  " ++ m.key ++ ": " ++ m.kind.staticType ++ ";" := rfl

theorem construction_eq : construction name ms =
    "    const " ++ name ++ " = new " ++ Text.capitalize name ++ "('123', " ++
      ", ".intercalate (ms.map (accessor "dto")) ++ ");" := rfl

theorem typedRequest_eq : typedRequest name ms =
    "    const dto: Create" ++ Text.capitalize name ++ "Dto = " ++ Mapping.sampleJson ms ++ ";" := rfl

attribute [local simp] weave listing Module.lines Statement.lines Declaration.lines Declaration.block block
  chain toString Keyword.text noBody indent_nil indent_gap indent_cons indent_append indent_map sheet_name
  sheet_className sheet_useCase sheet_fields sheet_sample sheet_route sheet_article sheet_testId bare_name
  bare_className bare_useCase bare_fields bare_route bare_article bare_testId typedMembers_sheet
  typedMembers_bare accesses_sheet accesses_bare promised_eq promisedOrNull_eq builtEntity_sheet
  builtEntity_bare badRequestCase_sheet typed_eq construction_eq typedRequest_eq

theorem entity_lines : Module.lines (entity.module (sheet name phrase s ms)) =
    weave (gaps (bare name phrase s required) entity) (lists entity name ms) := by
  simp [gaps, lists, module, FeatureModule.entity, FieldSheet.ofMapping, Function.comp_def,
    ← String.append_assoc]

theorem useCase_lines : Module.lines (useCase.module (sheet name phrase s ms)) =
    weave (gaps (bare name phrase s required) useCase) (lists useCase name ms) := by
  simp [gaps, lists, module, FeatureModule.useCase, accessor, ← String.append_assoc]
  exact String.append_assoc

theorem model_lines : Module.lines (model.module (sheet name phrase s ms)) =
    weave (gaps (bare name phrase s required) model) (lists model name ms) := by
  simp [gaps, lists, module, FeatureModule.model, FieldSheet.ofMapping, Function.comp_def,
    ← String.append_assoc]

theorem dataSource_lines : Module.lines (dataSource.module (sheet name phrase s ms)) =
    weave (gaps (bare name phrase s required) dataSource) (lists dataSource name ms) := by
  simp [gaps, lists, module, FeatureModule.dataSource, FeatureModule.guarded, accessor,
    ← String.append_assoc]

theorem useCaseTest_lines : Module.lines (useCaseTest.module (sheet name phrase s ms)) =
    weave (gaps (bare name phrase s required) useCaseTest) (lists useCaseTest name ms) := by
  simp [gaps, lists, module, FeatureModule.useCaseTest, FeatureModule.testCase, ← String.append_assoc]

theorem controllerTest_lines : Module.lines (controllerTest.module (sheet name phrase s ms)) =
    weave (gaps (bare name phrase s (ms.any isRequired)) controllerTest) (lists controllerTest name ms) := by
  simp [gaps, lists, module, FeatureModule.controllerTest, FeatureModule.testCase, FeatureModule.posted, call,
    FieldSheet.ofMapping, Function.comp_def, accessor, ← String.append_assoc]
  intro m _
  simp only [String.append_assoc, String.reduceAppend]

theorem schema_eq : Mapping.schema "  " ms =
    linesText ("z.object(\x7b" :: ms.map fun m => "  " ++ m.key ++ ": " ++ m.validator.text ++ ",") ++ "\x7d)" :=
  intercalate_concat _ _

theorem sheet_validatorSchema : (sheet name phrase s ms).validatorSchema = Mapping.schema "  " ms := rfl

theorem schema_text (items : List String) :
    linesText ["const " ++ (name ++ "Schema") ++
      (" = " ++ (linesText ("z.object(\x7b" :: items) ++ "\x7d)") ++ ";")] =
        linesText (("const " ++ name ++ "Schema = z.object(\x7b") :: items ++ ["\x7d);"]) := by
  have hopen : "Schema = z.object(\x7b" = "Schema" ++ (" = " ++ "z.object(\x7b") := rfl
  have hclose : "\x7d);" = "\x7d)" ++ ";" := rfl
  have hnil : linesText [] = "" := rfl
  rw [hopen, hclose]
  simp only [linesText_cons, linesText_append, List.cons_append, hnil, String.append_assoc]

theorem middleware_lines : Module.lines (middleware.module (sheet name phrase s ms)) =
    (Module.lines (middleware.module (bare name phrase s required))).take 3 ++
      ["const " ++ (name ++ "Schema") ++ (" = " ++ Mapping.schema "  " ms ++ ";")] ++
      (Module.lines (middleware.module (bare name phrase s required))).drop 4 := by
  simp [module, FeatureModule.middleware, sheet_validatorSchema]

theorem middleware_text : linesText (Module.lines (middleware.module (sheet name phrase s ms))) =
    linesText (weave (gaps (bare name phrase s required) middleware) (lists middleware name ms)) := by
  rw [middleware_lines name phrase s ms required, linesText_append, linesText_append, schema_eq, schema_text,
    ← linesText_append, ← linesText_append]
  simp [gaps, lists]

end Sheets

theorem module_text (d : FeatureDocument) (name phrase : String) (s : Settings) (ms : List Mapping) :
    (d.module (sheet name phrase s ms)).text =
      linesText (weave (gaps (bare name phrase s (ms.any isRequired)) d) (lists d name ms)) := by
  cases d with
  | entity => exact congrArg linesText (entity_lines name phrase s ms _)
  | useCase => exact congrArg linesText (useCase_lines name phrase s ms _)
  | model => exact congrArg linesText (model_lines name phrase s ms _)
  | dataSource => exact congrArg linesText (dataSource_lines name phrase s ms _)
  | middleware => exact middleware_text name phrase s ms _
  | useCaseTest => exact congrArg linesText (useCaseTest_lines name phrase s ms _)
  | controllerTest => exact congrArg linesText (controllerTest_lines name phrase s ms)
  | container | repositoryInterface | repository | controller =>
      exact congrArg linesText (List.append_nil _).symm

end FeatureDocument

namespace Mapping

theorem ofFields_ok {fs : List Field} {ms : List Mapping} (h : ofFields fs = .ok ms) :
    fs.map ofField = ms.map .ok := by
  unfold ofFields at h
  induction fs generalizing ms with
  | nil =>
      cases h
      rfl
  | cons f fs ih =>
      rw [List.mapM_cons] at h
      cases hf : ofField f with
      | error e =>
          rw [hf] at h
          cases h
      | ok m =>
          cases hfs : fs.mapM ofField with
          | error e =>
              rw [hf, hfs] at h
              cases h
          | ok ms' =>
              rw [hf, hfs] at h
              cases h
              rw [List.map_cons, hf, ih hfs, List.map_cons]

end Mapping

namespace Feature

open FeatureDocument

/-- Every document of a feature is text that the fields do not change, except for whether one is required,
woven with the lists of their mappings. -/
theorem documents_weave (name : String) (s : Settings) :
    ∃ fixed : Bool → FeatureDocument → List (List String),
      ∀ fields ds, Feature.documents ⟨name, fields⟩ s = .ok ds →
        ∃ ms, fields.map Mapping.ofField = ms.map .ok ∧
          ds = all.map fun d =>
            ⟨d.path name, linesText (weave (fixed (ms.any isRequired) d) (d.lists name ms))⟩ := by
  cases hphrase : withArticle name with
  | error e =>
      refine ⟨fun _ _ => [], fun fields ds h => ?_⟩
      simp only [documents, FeatureSheet.ofFeature, hphrase] at h
      cases hms : Mapping.ofFields fields with
      | error e => rw [hms] at h; cases h
      | ok ms => rw [hms] at h; cases h
  | ok phrase =>
      refine ⟨fun required => gaps (bare name phrase s required), fun fields ds h => ?_⟩
      simp only [documents, FeatureSheet.ofFeature, hphrase] at h
      cases hms : Mapping.ofFields fields with
      | error e =>
          rw [hms] at h
          cases h
      | ok ms =>
          rw [hms] at h
          cases h
          refine ⟨ms, Mapping.ofFields_ok hms, ?_⟩
          refine List.map_congr_left fun d _ => ?_
          exact congrArg (Document.mk (d.path name)) (module_text d name phrase s ms)

/-- Two fields, one of whose names is no identifier. -/
theorem documents_weave_user :
    ∃ fixed : Bool → FeatureDocument → List (List String), ∃ ds ms,
      Feature.documents ⟨"user", [⟨"first-name", "string", ""⟩, ⟨"age", "number", "min=18"⟩]⟩ .standard = .ok ds ∧
        [(⟨"first-name", "string", ""⟩ : Field), ⟨"age", "number", "min=18"⟩].map Mapping.ofField = ms.map .ok ∧
          ds = all.map fun d =>
            ⟨d.path "user", linesText (weave (fixed (ms.any isRequired) d) (d.lists "user" ms))⟩ := by
  obtain ⟨fixed, h⟩ := documents_weave "user" .standard
  obtain ⟨ms, hms, hds⟩ := h [⟨"first-name", "string", ""⟩, ⟨"age", "number", "min=18"⟩] _ rfl
  exact ⟨fixed, _, ms, rfl, hms, hds⟩

end Feature

end ApiScaffold
