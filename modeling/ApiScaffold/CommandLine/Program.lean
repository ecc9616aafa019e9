import ApiScaffold.CommandLine.Help
import ApiScaffold.CommandLine.Invocation
import ApiScaffold.Generation
import ApiScaffold.Log.Palette

namespace ApiScaffold.CommandLine

def version : String := "0.1.0"

/-- How a run of the program ends; help is not told but printed. -/
structure Ending where
  status : Nat
  help : Option Form
  told : List String

namespace Program

def overrides (i : Invocation) : List (String × Data) :=
  (if i.skipInstall then [(Settings.Key.installDependencies.text, .bool false)] else []) ++
  (if i.skipChecks then [(Settings.Key.checkEnvironment.text, .bool false)] else [])

def execute (c : Command) (s : Spelled Settings) : Run Generated :=
  match c with
  | .feature name fields => do
    Run.mark .progress ("Adding feature: " ++ name)
    Generation.add "." name fields s
  | .project name path features => do
    Run.tell (features.flatMap fun f => Field.resolveNotes f.2 s.shown.defaultFields)
    Generation.create name path (features.map fun f => Feature.build f.1 f.2 s.shown.defaultFields) s

def counted (noun : String) (n : Nat) : String := s!"{n} " ++ Text.counted noun n

def summary (g : Generated) : Run Unit := do
  let files := counted "file" g.documents.length
  if !g.warnings.isEmpty then
    Run.warn ("Completed with " ++ counted "warning" g.warnings.length)
  Run.mark .success s!"Wrote {files} to {g.root.text}"

def perform (i : Invocation) : Run Unit := do
  if i.verbose then Run.debug "Verbose mode enabled. DEBUG level logging activated."
  Run.mark .progress "Loading configuration..."
  let s ← Settings.loadSpelled (i.config.bind id) (overrides i)
  Run.debug ("Effective configuration: " ++ (← Run.ofExcept (Settings.text s)))
  let g ← execute i.command s
  summary g

def failureRecords : Failure → List Record
  | .reported r => [⟨.error, r.message⟩, ⟨.debug, r.text⟩]
  | f => [⟨.critical, "An unexpected error occurred: " ++ f.message⟩]

def guarded (i : Invocation) : Run Nat := do
  try
    perform i
    return 0
  catch f =>
    Run.tell (failureRecords f)
    return 1

def told (least : Level) (colours : Bool) (rs : List Record) : List String :=
  (rs.filter fun r => least ≤ r.level).map (Log.line Log.messageOnly colours)

def invoke (i : Invocation) (terminal : Bool) (w : World) : Ending × World :=
  let (result, after) := (guarded i).run { w with records := [] } |>.run
  let least := if i.verbose then Level.debug else Level.info
  let status := match result with
    | .ok n => n
    | .error _ => 1
  (⟨status, none, told least (terminal && !i.noColor) after.records⟩, after)

def run (argv : List String) (terminal : Bool) (w : World) : Ending × World :=
  if argv.isEmpty then (⟨1, none, usageLines⟩, w)
  else
    match Invocation.parse argv with
    | .error (.help form) => (⟨0, some form, []⟩, w)
    | .error (.usage message) =>
      let colours := terminal && !argv.contains "--no-color"
      (⟨1, none, [Log.line Log.messageOnly colours ⟨.error, message⟩]⟩, w)
    | .ok i => invoke i terminal w

end Program

end ApiScaffold.CommandLine

namespace ApiScaffold.CommandLine.Invocation

def paths (i : Invocation) : List Path :=
  let config := (((i.config.bind id).filter (· ≠ "")).map Path.ofText).toList
  match i.command with
  | .project name folder _ => (Path.ofText folder / name) :: config
  | .feature name _ =>
    let files := FeatureDocument.all.map fun d => d.path name
    let here := [EntryPoint.path, Readme.path, "package.json"] ++ Feature.directories name ++ files
    here.map Path.ofText ++ config

def openings : Location → List Location
  | [] => []
  | n :: l => [n] :: (openings l).map (n :: ·)

/-- The places themselves and those on the way to them, each after the one that holds it. -/
def reach (here : Location) (i : Invocation) : List Location :=
  (i.paths.flatMap fun p => openings (Generation.resolved here p)).eraseDups

end ApiScaffold.CommandLine.Invocation
