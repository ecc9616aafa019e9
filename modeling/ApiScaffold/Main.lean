import ApiScaffold.CommandLine.Program

namespace ApiScaffold.Main

def pathText (l : Location) : String := "/" ++ "/".intercalate l

def probe (l : Location) : IO (Option Node) := do
  try
    return some (.file (.ofBytes (← IO.FS.readBinFile (pathText l)).toList))
  catch
    | .inappropriateType .. => return some .directory
    | _ => return none

def probeAll (ls : List Location) : IO Tree := do
  let found ← ls.mapM fun l => return (l, ← probe l)
  return found.filterMap fun p => p.2.map fun n => (p.1, n)

def commands : List String := ["node", "npm", "tsc"]

def isThere (path : String) : IO Bool := do
  try
    let _ ← IO.FS.Handle.mk path .read
    return true
  catch _ => return false

def findTools : IO Toolchain := do
  let folders := (((← IO.getEnv "PATH").getD "").toList.splitOn ':').map String.ofList
  let found ← commands.filterM fun c => folders.anyM fun d => isThere (d ++ "/" ++ c)
  return ⟨found, fun _ => .failed "commands are not started"⟩

def save (before after : Tree) : IO Unit :=
  after.forM fun e => do
    if Keyed.get? e.1 before ≠ some e.2 then
      match e.2 with
      | .directory => IO.FS.createDirAll (pathText e.1)
      | .file c => IO.FS.writeFile (pathText e.1) c.shown

def places (here : Location) (args : List String) : List Location :=
  match CommandLine.Invocation.parse args with
  | .ok i => i.reach here
  | .error _ => []

end ApiScaffold.Main

open ApiScaffold in
def main (args : List String) : IO UInt32 := do
  let here := (Path.ofText (← IO.currentDir).toString).parts
  let tree ← Main.probeAll (CommandLine.Invocation.openings here ++ Main.places here args)
  let world : World := .fresh tree here (← Main.findTools)
  let terminal ← (← IO.getStderr).isTty
  let (ending, after) := CommandLine.Program.run args terminal world
  Main.save tree after.tree
  ending.told.forM fun line => IO.eprintln line
  match ending.help with
  | some form => IO.print form.help
  | none => pure ()
  return ending.status.toUInt32
