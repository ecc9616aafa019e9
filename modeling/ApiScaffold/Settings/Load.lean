import ApiScaffold.Notes
import ApiScaffold.Run
import ApiScaffold.Settings.Reading
import ApiScaffold.Yaml.Value

namespace ApiScaffold.Settings

/-- The entries that a document gives; one that counts as nothing gives none. -/
def entriesOf (path : String) : Data → Except Failure (List (Data × Data))
  | .mapping es => .ok es
  | d =>
    if d.truthy then
      .error (.reported (.configuration s!"Content in config file {path} is not a mapping" (some path)))
    else .ok []

/-- The document in the text of a file; `complaint` is what is said of a malformed one. -/
def readDocument (complaint : String → String → String) (path text : String) : Except Failure Data :=
  match Yaml.read text with
  | .ok d => .ok d
  | .error (.refused f) => .error f
  | .error .malformed =>
    let problem := complaint path text
    .error (.reported (.configuration s!"Error parsing YAML file {path}: {problem}" (some path)))

def fileEntries (path : String) : Run (List (Data × Data)) := do
  match ← Run.file? (.ofText path) with
  | none =>
    Run.warn s!"Config file not found at {path}. Using defaults and CLI arguments."
    return []
  | some c =>
    let text ← Run.ofExcept c.readInParts
    let d ← Run.ofExcept (readDocument (← get).complaint path text)
    let es ← Run.ofExcept (entriesOf path d)
    if !es.isEmpty then Run.debug s!"Loaded configuration from {path}"
    return es

/-- The overrides that name a setting and give it a value. -/
def effective (overrides : List (String × Data)) : List (String × Data) :=
  overrides.filter fun o => Key.all.any (fun k => k.text = o.1) && (match o.2 with
    | .null => false
    | _ => true)

def overrideNotes (overrides : List (String × Data)) : List Record :=
  match overrides with
  | [] => []
  | os =>
    let keys := (os.map (·.1)).mergeSort fun a b => decide (a ≤ b)
    [note s!"Overridden config keys from CLI arguments: {Text.literalList keys}"]

def fieldNotes (d : Data) : List Record :=
  match d.entry? Key.defaultFields.text with
  | some (.str s) => if s = "" then [] else Field.blankNotes s
  | _ => []

def checkNotes (s : Settings) : List Record :=
  (if s.installDependencies && !s.checkEnvironment then
    [note ("'install_dependencies' is enabled while the environment check is off; " ++
      "'npm install' may fail if npm is missing.")] else []) ++
  [note "Configuration dictionary parsed and validated successfully against schema."]

def notes (d : Data) : List Record :=
  fieldNotes d ++ match ofData? d with
    | .ok s => checkNotes s
    | .error fs => (fs.takeWhile Fault.isShowable).map fun f => note f.detail

/-- The settings of a file, if one is named, with each override in place of what the file says. -/
def loadSpelled (path : Option String) (overrides : List (String × Data)) : Run (Spelled Settings) := do
  let path := path.filter (· ≠ "")
  let given ← match path with
    | some p => fileEntries p
    | none => pure []
  let os := effective overrides
  Run.tell (overrideNotes os)
  let d := Data.mapping (given ++ os.map fun o => (.str o.1, o.2))
  Run.tell (notes d)
  return spelled d (← Run.ofExcept (ofData d path))

def load (path : Option String) (overrides : List (String × Data)) : Run Settings :=
  return (← loadSpelled path overrides).shown

end ApiScaffold.Settings
