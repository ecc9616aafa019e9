import ApiScaffold.Json.Reader
import ApiScaffold.Tree.Content

namespace ApiScaffold.Manifest

def path : String := "package.json"

inductive Fault
  | undecodable (f : Failure)
  | malformed (text : String) (f : Json.Fault)
  | noMapping (found : String)

def Fault.message : Fault → String
  | undecodable f => f.message
  | malformed text f => f.message text.toList
  | noMapping found => s!"'{found}' object has no attribute 'get'"

/-- The name that a value gives under its last key of that name; an empty one is none. -/
def nameOf : Data → Except Fault (Option (Spelled String))
  | d@(.mapping _) =>
    match d.entry? "name" with
    | some (.str n) => .ok (if n = "" then none else some n)
    | some (.halved codes) => .ok (some (.ofCodes codes))
    | _ => .ok none
  | d => .error (.noMapping d.kindName)

def nameIn (text : String) : Except Fault (Option (Spelled String)) :=
  match Json.read text with
  | .ok d => nameOf d
  | .error f => .error (.malformed text f)

def name (c : Content) : Except Fault (Option (Spelled String)) :=
  match c.read with
  | .ok text => nameIn text
  | .error f => .error (.undecodable f)

end ApiScaffold.Manifest
