import ApiScaffold.Document
import ApiScaffold.Project.Sheet
import ApiScaffold.Text.Cut

namespace ApiScaffold

namespace EntryPoint

open TypeScript

def path : String := "Server/index.ts"

def frame : List Statement := [
  .importing (.effects "reflect-metadata"),
  .importing (.default "express" "express"),
  .importing (.default "dotenv" "dotenv"),
  .importing (.named ["container"] "tsyringe"),
  .importing (.named ["connectToDatabase"] "../Core/config/database")]

def controller (f : WiredFeature) : List Statement := [
  .declaring ⟨[], false, .constant, f.controllerVariable, s!" = container.resolve({f.controllerClass});",
    []⟩,
  .running [s!"app.use('{f.route}', {f.controllerVariable}.getRouter());"]]

def startServer : Declaration :=
  .block false .constant "startServer" " = async () =>" (
    chain ("try", [
      "await connectToDatabase();"] ++
      block "app.listen(port, () =>"
        ["console.log(\x60Server running on http://localhost:$\x7bport\x7d\x60);"] ");")
      [("catch (error)", ["console.error('Failed to start server:', error);"])] "") ";"

def module (s : WiringSheet) : Module :=
  frame ++
  s.features.map (fun f => .importing (.effects f.containerModule)) ++
  s.features.map (fun f => .importing (.named [f.controllerClass] f.controllerModule)) ++ [
  .gap,
  .running ["dotenv.config();"],
  .gap,
  .declaring ⟨[], false, .constant, "app", " = express();", []⟩,
  .declaring ⟨[], false, .constant, "port", s!" = process.env.PORT || {s.port};", []⟩,
  .gap,
  .running ["app.use(express.json());"]] ++
  s.features.flatMap controller ++ [
  .gap,
  .declaring startServer,
  .gap,
  .running ["startServer();"]]

def render (r : Registry) (s : Settings) : Document := ⟨path, (module (.ofRegistry r s)).text⟩

def folderName (cs : List Char) : List Char × List Char := cs.span fun c => c != '/' && c != '\''

def quoted (cs : List Char) : List Char × List Char := cs.span (· != '\'')

/-- An import of a controller, alone on its line but perhaps with blanks after it. -/
def controllerImport? (cs : List Char) : Option (List Char × List Char) := do
  let r ← Text.stripLead? "import \x7b ".toList cs
  let (binding, r) := r.span fun c => !Text.isBlank c
  if !("Controller".toList.isSuffixOf binding && 10 < binding.length) then none
  let r ← Text.stripLead? " \x7d from '../Features/".toList r
  let (name, r) := folderName r
  let r ← Text.stripLead? "/delivery/controllers/".toList r
  let (target, r) := quoted r
  let r ← Text.stripLead? "';".toList r
  if name.isEmpty || target.isEmpty || !Text.lineIsBlank r then none
  some (name, r)

/-- Any import of names from a feature's folder: the feature and the text of the import. -/
def featureImport? (cs : List Char) : Option ((List Char × List Char) × List Char) := do
  let r ← Text.stripLead? "import \x7b".toList cs
  let (_, r) := r.span (· != '\x7d')
  let r ← Text.stripLead? "\x7d from '../Features/".toList r
  let (name, r) := folderName r
  let r ← Text.stripLead? ['/'] r
  let (_, r) := quoted r
  let r ← Text.stripLead? ['\''] r
  let r := match r with
    | ';' :: r => r
    | r => r
  if name.isEmpty || !Text.lineIsBlank r then none
  some ((name, cs.take (cs.length - r.length)), r)

def names (content : String) : List String :=
  Keyed.keys (Keyed.ofPairs ((Text.scan controllerImport? content.toList).map fun n =>
    (String.ofList n, ())))

/-- Imports that will be lost when the entry point is written again. -/
def strays (content : String) : List (String × String) :=
  ((Text.scan featureImport? content.toList).map fun p =>
    (String.ofList p.1, String.ofList (Text.strip p.2))).filter fun p => !(names content).contains p.1

def strayWarning (p : String × String) : String :=
  s!"Unrecognized import of feature '{p.1}' in the entry point; " ++
    s!"it will not be wired after regeneration: {p.2}"

end EntryPoint

end ApiScaffold
