import ApiScaffold.Run

namespace ApiScaffold.Toolchain

def fails {α : Type} (message tool : String) : Run α :=
  throw (.reported (.environment message (some tool)))

/-- Fails with a report about Node.js in which the version asked for stands, so it must be one that can be
written. -/
def failsFor {α : Type} (least : Int) (message : String → String) : Run α := do
  fails (message (← Run.ofExcept (Number.written least))) "node"

def missingNode (version : String) : String :=
  s!"Node.js is not installed. Please install Node.js version {version} or higher."

def outdatedNode (found version : String) : String :=
  let shown := if found = "" then "unknown" else found
  s!"Node.js version {version} or higher is required. Found: {shown}"

def checkNode (least : Int) : Run Nat := do
  if !(← get).tools.has "node" then failsFor least missingNode
  match ← Run.call ⟨["node", "-v"], none⟩ with
  | .failed e => fails s!"Could not run 'node -v': {e}" "node"
  | .finished _ output _ =>
    let found := Text.trim output
    let outdated := failsFor least (outdatedNode found)
    match ← Run.ofExcept (nodeMajor? found) with
    | none => outdated
    | some major =>
      if (major : Int) < least then outdated
      else
        Run.debug ("Found Node.js " ++ found)
        return major

def checkNpm : Run Unit := do
  if !(← get).tools.has "npm" then fails "npm is not installed. Please install npm." "npm"

def ensureTypeScript : Run Bool := do
  if (← get).tools.has "tsc" then return false
  Run.mark .progress "TypeScript is not installed globally. Installing..."
  match ← Run.call ⟨["npm", "install", "-g", "typescript"], none⟩ with
  | .failed e => Run.warn s!"Could not install TypeScript: {e}"
  | .finished status _ _ =>
    if status ≠ 0 then
      Run.warn s!"'npm install -g typescript' exited with status {Number.intText status.toInt}"
  return true

def check (least : Int) : Run Unit := do
  let _ ← checkNode least
  checkNpm
  let _ ← ensureTypeScript
  Run.debug "Toolchain preflight passed"

def installPackages (root : String) : Run Bool := do
  Run.mark .progress "Installing dependencies..."
  match ← Run.call ⟨["npm", "install"], some root⟩ with
  | .failed e =>
    Run.warn s!"Could not run 'npm install': {e}"
    return false
  | .finished status _ errors =>
    if status = 0 then
      Run.mark .success "Dependencies installed"
      return true
    else
      Run.warn s!"'npm install' exited with status {Number.intText status.toInt}; run it manually in {root}"
      Run.debug errors
      return false

end ApiScaffold.Toolchain
