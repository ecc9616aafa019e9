import ApiScaffold.CommandLine.Flag
import ApiScaffold.Text.Character
import ApiScaffold.Text.Cut
import ApiScaffold.Text.Literal

namespace ApiScaffold.CommandLine

inductive Item
  | argument (s : String)
  | separator
  /-- Short options written together, the last perhaps with a value. -/
  | flags (fs : List Flag) (last : Flag) (value : Option String)
  | unknown (s : String)
  /-- An option with a value that it does not take. -/
  | overfull (f : Flag) (value : String)
  deriving DecidableEq, Repr

namespace Item

def separatorText : String := "--"

def text : Item → String
  | argument s | unknown s => s
  | separator => separatorText
  | flags .. | overfull .. => ""

def after (f : Flag) : Item → Item
  | flags fs last value => flags (f :: fs) last value
  | item => item

/-- What an option with a joined text means: its value or, after a short flag, more short options. -/
def joined (form : Form) (short : Bool) (f : Flag) (cs : List Char) : Item :=
  if f.arity ≠ .none then flags [] f (some (.ofList cs))
  else
    match cs with
    | [] => overfull f ""
    | c :: rest =>
      match if short then form.flag? (.ofList ['-', c]) else none with
      | none => overfull f (.ofList cs)
      | some g => after f (if rest.isEmpty then flags [] g none else joined form short g rest)
termination_by cs.length

/-- A minus sign and a number, which may end in a line break. -/
def isNegative (cs : List Char) : Bool :=
  let body := (cs.drop 1)
  let body := if body.getLast? == some '\n' then body.dropLast else body
  match Text.cut '.' body with
  | (ds, none) => !ds.isEmpty && ds.all Text.isDigit
  | (ds, some fs) => ds.all Text.isDigit && !fs.isEmpty && fs.all Text.isDigit

def isShort : List Char → Bool
  | '-' :: '-' :: _ => false
  | _ => true

def assigned? (form : Form) (cs : List Char) : Option Item :=
  match Text.cut '=' cs with
  | (_, none) => none
  | (name, some value) =>
    (form.flag? (.ofList name)).map fun f => joined form (isShort name) f value

def clustered? (form : Form) (cs : List Char) : Option Item :=
  match cs with
  | a :: b :: rest =>
    if isShort cs then (form.flag? (.ofList [a, b])).map fun f => joined form true f rest else none
  | _ => none

def ofText (form : Form) (s : String) : Item :=
  let cs := s.toList
  if cs.head? ≠ some '-' ∨ cs.length = 1 then argument s
  else
    match form.flag? s with
    | some f => flags [] f none
    | none =>
      match assigned? form cs, clustered? form cs with
      | some item, _ | none, some item => item
      | none, none => if isNegative cs || cs.contains ' ' then argument s else unknown s

/-- The items up to the first separator, which makes all that follow arguments. -/
def ofTexts (form : Form) : List String → List Item
  | [] => []
  | s :: ss =>
    if s = separatorText then separator :: ss.map argument else ofText form s :: ofTexts form ss

end Item

end ApiScaffold.CommandLine
