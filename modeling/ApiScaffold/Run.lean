import ApiScaffold.Log
import ApiScaffold.Toolchain
import ApiScaffold.Tree

namespace ApiScaffold

/-- What a run works on: the tree and the place in it, the toolchain, and the account of what happened. -/
structure World where
  tree : Tree
  here : Location
  tools : Toolchain
  /-- What the reader of YAML has to say of a malformed text at a path, in words of its own. -/
  complaint : String → String → String
  records : List Record
  calls : List Toolchain.Call

abbrev World.fresh (tree : Tree) (here : Location) (tools : Toolchain) : World := ⟨tree, here, tools, fun _ _ => "", [], []⟩

abbrev Run := ExceptT Failure (StateM World)

namespace Run

variable {α : Type}

def ofExcept : Except Failure α → Run α
  | .ok a => pure a
  | .error f => throw f

def tell (rs : List Record) : Run Unit := modify fun w => { w with records := w.records ++ rs }

def debug (message : String) : Run Unit := tell [⟨.debug, message⟩]

def warn (message : String) : Run Unit := tell [⟨.warning, message⟩]

def mark (m : Marker) (message : String) : Run Unit := tell [m.record message]

def call (c : Toolchain.Call) : Run Toolchain.Outcome := do
  let folder := c.folder.getD "."
  debug s!"+ ({folder}) {c.text}"
  modify fun w => { w with calls := w.calls ++ [c] }
  return (← get).tools.run c

def at? (p : Path) : Run (Option Node) := do
  ofExcept ((← get).tree.look (← get).here p)

def file? (p : Path) : Run (Option Content) := return (← at? p).bind Node.content?

/-- Changes the tree; what has been changed before a failure stays. -/
def change (f : Location → Tree → Except Failure Unit × Tree) : Run Unit := do
  let w ← get
  let r := f w.here w.tree
  set { w with tree := r.2 }
  ofExcept r.1

def makeDirectories (mayExist : Bool) (p : Path) : Run Unit :=
  change fun here => Tree.makeDirectories mayExist here p

def write (p : Path) (c : Spelled String) : Run Unit := change fun here t => t.writeText here p c

end Run

end ApiScaffold
