import ApiScaffold.CommandLine.Event

namespace ApiScaffold.CommandLine

inductive Halt
  | usage (message : String)
  | help (form : Form)
  deriving DecidableEq, Repr

/-- What the options say, and the positional arguments and extras met so far. -/
structure Reading where
  /-- The configuration file; a separator given as its value stands for none. -/
  config : Option (Option String)
  verbose : Bool
  noColor : Bool
  skipInstall : Bool
  skipChecks : Bool
  features : List (String × Option String)
  fields : Option String
  positionals : List (Option String)
  extras : List String
  deriving DecidableEq, Repr

namespace Reading

def start : Reading := ⟨none, false, false, false, false, [], none, [], []⟩

def fieldsMissing : String := "Error: --fields requires a comma-separated list of field:type:rule pairs"

def addFeature (r : Reading) (value : Option String) : Except Halt Reading :=
  match value.getD "" with
  | "" => .error (.usage "Error: --feature requires a feature name")
  | name => .ok { r with features := r.features ++ [(name, none)] }

def addFields (r : Reading) (value : Option String) : Except Halt Reading :=
  match r.features.reverse, value.getD "" with
  | [], _ => .error (.usage "Error: --fields must follow a --feature flag")
  | _, "" => .error (.usage fieldsMissing)
  | (name, _) :: fs, spec => .ok { r with features := (fs.reverse) ++ [(name, some spec)] }

def obey (form : Form) (r : Reading) : Event → Except Halt Reading
  | .positionals values => .ok { r with positionals := values }
  | .extra s => .ok { r with extras := r.extras ++ [s] }
  | .wrong message => .error (.usage ("Error: " ++ message))
  | .flag .help _ => .error (.help form)
  | .flag .feature value => r.addFeature value
  | .flag .fields value =>
    match form with
    | .project => r.addFields value
    | .feature => .ok { r with fields := some (value.getD "") }
  | .flag .config value => .ok { r with config := some value }
  | .flag .verbose _ => .ok { r with verbose := true }
  | .flag .noColor _ => .ok { r with noColor := true }
  | .flag .skipInstall _ => .ok { r with skipInstall := true }
  | .flag .skipChecks _ => .ok { r with skipChecks := true }

def ofEvents (form : Form) (es : List Event) : Except Halt Reading := es.foldlM (obey form) start

def checkExtras (r : Reading) : Except Halt Unit :=
  match r.extras with
  | [] => .ok ()
  | s :: _ => .error (.usage s!"Unknown argument: {s}")

end Reading

inductive Command
  | project (name path : String) (features : List (String × Option String))
  | feature (name : String) (fields : Option String)
  deriving DecidableEq, Repr

structure Invocation where
  command : Command
  config : Option (Option String)
  verbose : Bool
  noColor : Bool
  skipInstall : Bool
  skipChecks : Bool
  deriving DecidableEq, Repr

namespace Invocation

def ofReading (r : Reading) (c : Command) : Invocation :=
  ⟨c, r.config, r.verbose, r.noColor, r.skipInstall, r.skipChecks⟩

def projectPath : String := "."

def project (r : Reading) : Except Halt Invocation := do
  match r.positionals with
  | some name :: path =>
    r.checkExtras
    .ok (ofReading r (.project name ((path.head?.bind id).getD projectPath) r.features))
  | _ => .error (.usage "Error: the following arguments are required: project_name")

def feature (r : Reading) : Except Halt Invocation := do
  r.checkExtras
  let name := (r.positionals.head?.bind id).getD ""
  if name = "" then throw (.usage "Error: feature command requires a feature name")
  if r.fields = some "" then throw (.usage Reading.fieldsMissing)
  .ok (ofReading r (.feature name r.fields))

def formOf : List String → Form × List String
  | "feature" :: argv => (.feature, argv)
  | argv => (.project, argv)

def parse (argv : List String) : Except Halt Invocation := do
  let (form, argv) := formOf argv
  let r ← Reading.ofEvents form (events form argv)
  match form with
  | .project => project r
  | .feature => feature r

end Invocation

end ApiScaffold.CommandLine
