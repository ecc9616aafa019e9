import ApiScaffold.Decimal.Number
import ApiScaffold.Log
import ApiScaffold.Text.Cut

namespace ApiScaffold

namespace Level

def names : List (Level × String) := [(0, "NOTSET"), (debug, "DEBUG"), (info, "INFO"),
  (warning, "WARNING"), (error, "ERROR"), (critical, "CRITICAL")]

def text (l : Level) : String :=
  match names.find? fun p => p.1 = l with
  | some p => p.2
  | none => "Level " ++ Number.intText l

end Level

namespace Log

inductive Part
  | plain (c : Char)
  /-- A part of the record, filled with blanks to `width` on the left or on the right. -/
  | place (key : String) (toLeft : Bool) (width : Nat)
  deriving DecidableEq, Repr

abbrev Format := List Part

def place? (cs : List Char) : Option (Part × List Char) := do
  let cs ← Text.stripLead? ['('] cs
  let (key, rest) := Text.cut ')' cs
  let cs ← rest
  let (toLeft, cs) := match cs with
    | '-' :: cs => (true, cs)
    | cs => (false, cs)
  let (digits, cs) := cs.span Char.isDigit
  match cs with
  | c :: cs =>
    if c = 's' ∨ c = 'd' then some (.place (.ofList key) toLeft (Text.digitsValue digits), cs) else none
  | [] => none

def readParts : Nat → List Char → Format
  | 0, _ => []
  | _, [] => []
  | fuel + 1, '%' :: '%' :: cs => .plain '%' :: readParts fuel cs
  | fuel + 1, '%' :: cs =>
    match place? cs with
    | some (p, cs) => p :: readParts fuel cs
    | none => .plain '%' :: readParts fuel cs
  | fuel + 1, c :: cs => .plain c :: readParts fuel cs

def messageOnly : Format := [.place "message" false 0]

/-- The format that a text gives; none or an empty one stands for the bare message. -/
def Format.ofText (s : Option String) : Format :=
  match s.getD "" with
  | "" => messageOnly
  | s => readParts s.length s.toList

def loggerName : String := "tsclean"

def partText (r : Record) (key : String) : String :=
  if key = "message" then r.message
  else if key = "levelname" then r.level.text
  else if key = "levelno" then Number.intText r.level
  else if key = "name" then loggerName
  else ""

def fill (toLeft : Bool) (width : Nat) (cs : List Char) : List Char :=
  let blanks := List.replicate (width - cs.length) ' '
  if toLeft then cs ++ blanks else blanks ++ cs

def Part.chars (r : Record) : Part → List Char
  | .plain c => [c]
  | .place key toLeft width => fill toLeft width (partText r key).toList

def Format.line (f : Format) (r : Record) : String := .ofList (f.flatMap (Part.chars r))

end Log

end ApiScaffold
