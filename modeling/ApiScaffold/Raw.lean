import ApiScaffold.Feature.Documents
import ApiScaffold.Json.Printer
import ApiScaffold.Path
import ApiScaffold.Project.Documents
import ApiScaffold.Project.EntryPoint
import ApiScaffold.Project.Readme

namespace ApiScaffold

abbrev Raw := Option Data

namespace Raw

def member (key : String) (r : Raw) : Raw := r.bind (Data.entry? key)

def shown (r : Raw) : String := (r.map Data.shown).getD ""

def truthy (r : Raw) : Bool := (r.map Data.truthy).getD false

def items : Raw → Except Failure (List Data)
  | none => .ok []
  | some (.list ds) => .ok ds
  | some (.str s) => .ok (s.toList.map fun c => .str (String.singleton c))
  | some (.mapping es) => .ok (es.map (·.1))
  | some d => .error (.notIterable d.kindName)

def keyAndMember : Raw → Except Failure (String × String)
  | none => .error (.noJson "Undefined")
  | some (.str s) => .ok (Identifier.key s, Identifier.member s)
  | some d => if d.truthy then .error (.notMatchable d.kindName) else .ok (d.json, "[" ++ d.json ++ "]")

def phrase : Raw → Except Failure String
  | none => .error (.noPhrase "jinja2.runtime.Undefined")
  | some (.str s) => withArticle s
  | some .null => .error (.noPhrase "None")
  | some d => .error (.noPhrase d.kindName)

inductive Problem
  | undefined (key : String)
  | noMember (kind wanted : String)
  | notFound (template : String)
  deriving DecidableEq, Repr

def Problem.message : Problem → String
  | undefined key => s!"'{key}' is undefined"
  | noMember kind wanted => s!"'{kind}' has no attribute '{wanted}'"
  | notFound template => template

def refusal (template : String) (feature : Option String) (p : Problem) : Failure :=
  .reported (.codeGeneration s!"Failed to render template '{template}': {p.message}" (some template)
    feature)

/-- A value asked for a member that its kind does not have. -/
def lacking (wanted : String) : Data → Problem
  | .null => .noMember "None" wanted
  | v => .noMember (v.kindName ++ " object") wanted

/-- A name with its article, unless the context has something else in place of what knows articles. -/
def phraseWith (refuse : Problem → Failure) (articles : Raw) (name : Raw) : Except Failure String :=
  match articles with
  | none => phrase name
  | some d =>
    match d.entry? "a" with
    | some v => .error (.notCallable v.kindName)
    | none => .error (refuse (lacking "a" d))

def packages (key : String) (d : Data) : Except Problem (List (String × Data)) :=
  match d.entry? key with
  | none => .error (.undefined key)
  | some (.mapping es) => .ok (es.map fun e => (e.1.shown, e.2))
  | some v => .error (lacking "items" v)

/-- The name of a template as it is looked up: empty parts and single dots do not count, and no part may lead
upwards. -/
def templateName? (name : String) : Option String :=
  let parts := (name.toList.splitOn '/').map String.ofList
  if parts.contains ".." then none else some ("/".intercalate (parts.filter Path.isPart))

end Raw

inductive FieldUse
  | none | plain | keyed
  deriving DecidableEq, Repr

def FeatureDocument.fieldUse : FeatureDocument → FieldUse
  | entity => .plain
  | useCase | model | dataSource | useCaseTest | controllerTest => .keyed
  | container | repositoryInterface | repository | middleware | controller => .none

def FieldSheet.ofRaw (use : FieldUse) (f : Raw) : Except Failure FieldSheet := do
  let name := f.member "name"
  let (key, member) ← if use = .keyed then name.keyAndMember else pure ("", "")
  .ok ⟨name.shown, key, member, (f.member "static_type").shown, (f.member "schema_type_expression").shown⟩

def FeatureSheet.ofData (use : FieldUse) (d : Data) : Except Failure FeatureSheet := do
  let shown := fun key => Raw.shown (d.entry? key)
  let fields ← if use = .none then pure [] else Raw.items (d.entry? "fields")
  let fields ← fields.mapM fun f => FieldSheet.ofRaw use (some f)
  .ok {
    name := shown "name", className := shown "Feature", useCase := shown "UseCase", fields,
    validatorSchema := shown "validator_schema", sample := shown "sample_json", route := shown "route",
    article := shown "article", testId := shown "test_id",
    hasRequired := Raw.truthy (d.entry? "has_required_fields") }

def FeatureDocument.ofData (doc : FeatureDocument) (d : Data) : Except Failure String :=
  (FeatureSheet.ofData doc.fieldUse d).map fun s => (doc.module s).text

def WiredFeature.ofRaw (f : Raw) : WiredFeature :=
  let shown := fun key => (f.member key).shown
  ⟨shown "name", shown "sample_json", shown "route", shown "controller_class",
    shown "controller_variable", shown "controller_module", shown "container_module"⟩

def WiringSheet.ofData (d : Data) : Except Failure (WiringSheet × List Data) := do
  let features ← Raw.items (d.entry? "features")
  let shown := fun key => Raw.shown (d.entry? key)
  .ok (⟨shown "project_name", features.map fun f => .ofRaw (some f), shown "port", shown "base_url"⟩,
    features)

def EntryPoint.ofData (d : Data) : Except Failure String :=
  (WiringSheet.ofData d).map fun s => (EntryPoint.module s.1).text

def Readme.ofData (refuse : Raw.Problem → Failure) (d : Data) : Except Failure String := do
  let (s, features) ← WiringSheet.ofData d
  let articles := d.entry? "p"
  let phrases ← features.mapM fun f => Raw.phraseWith refuse articles (Raw.member "name" (some f))
  .ok (linesText (Readme.lines s phrases))

def ProjectSheet.ofData (refuse : Raw.Problem → Failure) (d : Data) : Except Failure ProjectSheet := do
  let name ← match d.entry? "project_name" with
    | some v => pure v
    | none => throw (.noJson "Undefined")
  let dependencies ← (Raw.packages "dependencies" d).mapError refuse
  let devDependencies ← (Raw.packages "dev_dependencies" d).mapError refuse
  .ok { name, dependencies, devDependencies, port := "", mongodbUri := "" }

def SharedDocument.ofData (doc : SharedDocument) (refuse : Raw.Problem → Failure) (d : Data) :
    Except Failure String := do
  let s ← match doc with
    | package => ProjectSheet.ofData refuse d
    | _ => pure ⟨.null, [], [], Raw.shown (d.entry? "port"), Raw.shown (d.entry? "mongodb_uri")⟩
  .ok (doc.content s)

end ApiScaffold
