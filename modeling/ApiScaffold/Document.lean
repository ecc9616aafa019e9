import ApiScaffold.Spelled
import ApiScaffold.TypeScript.Module

namespace ApiScaffold

structure Document where
  path : String
  content : String
  deriving DecidableEq, Repr

/-- A document that is going to be written, for which it matters whether its text can be encoded. -/
structure Draft where
  path : String
  content : Spelled String
  deriving DecidableEq, Repr

namespace Draft

def ofDocument (d : Document) : Draft := ⟨d.path, d.content⟩

def shown (d : Draft) : Document := ⟨d.path, d.content.shown⟩

def pair : List Document → List Document → List Draft
  | [], _ => []
  | d :: ds, [] => ofDocument d :: pair ds []
  | d :: ds, e :: es => ⟨d.path, .twice d.content e.content⟩ :: pair ds es

/-- The documents that are made of a value in each of its spellings. -/
def render {α : Type} (f : α → Except Failure (List Document)) : Spelled α → Except Failure (List Draft)
  | .plain a => (f a).map fun ds => ds.map ofDocument
  | .twice a b => do return pair (← f a) (← f b)

end Draft

end ApiScaffold
