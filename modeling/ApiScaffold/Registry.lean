import ApiScaffold.Keyed

namespace ApiScaffold

structure Registry where
  project : String
  features : List (String × String)
  deriving DecidableEq, Repr

namespace Registry

def emptySample : String := "\x7b\x7d"

def empty (project : String) : Registry := ⟨project, []⟩

def names (r : Registry) : List String := Keyed.keys r.features

def get? (r : Registry) (name : String) : Option String := Keyed.get? name r.features

/-- Adds a feature at the end, or refreshes the sample of one that is there. -/
def register (r : Registry) (name sample : String) : Registry :=
  { r with features := Keyed.put name sample r.features }

theorem names_register (r : Registry) (name sample : String) :
    (r.register name sample).names = if name ∈ r.names then r.names else r.names ++ [name] :=
  Keyed.keys_put name sample r.features

theorem get?_register_self (r : Registry) (name sample : String) :
    (r.register name sample).get? name = some sample := Keyed.get?_put_self name sample r.features

theorem get?_register_of_ne {name other : String} (h : other ≠ name) (r : Registry) (sample : String) :
    (r.register name sample).get? other = r.get? other := Keyed.get?_put_of_ne h sample r.features

def enter (r : Registry) (name sample : String) : Bool × Registry := ((r.get? name).isNone, r.register name sample)

def registerAll (r : Registry) (fs : List (String × String)) : Registry :=
  fs.foldl (fun r f => r.register f.1 f.2) r

end Registry

end ApiScaffold
