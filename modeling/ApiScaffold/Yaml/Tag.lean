import ApiScaffold.Text.Cut
import ApiScaffold.Yaml.Timestamp

namespace ApiScaffold.Yaml

inductive Tag
  | null | bool | int | float | binary | timestamp | str | seq | map | set | omap | pairs
  /-- A key whose value's entries are taken over. -/
  | merge
  /-- A key for the value of a mapping that stands for a scalar. -/
  | value
  | unknown
  deriving DecidableEq, Repr

namespace Tag

def names : List (String × Tag) := [
  ("null", null), ("bool", bool), ("int", int), ("float", float), ("binary", binary),
  ("timestamp", timestamp), ("str", str), ("seq", seq), ("map", map), ("set", set), ("omap", omap),
  ("pairs", pairs), ("merge", merge), ("value", value)]

def scheme : String := "tag:yaml.org,2002:"

def ofName (s : String) : Tag :=
  match Text.stripLead? scheme.toList s.toList with
  | some cs => (names.lookup (.ofList cs)).getD .unknown
  | none => .unknown

def nullWords : List String := ["", "~", "null", "Null", "NULL"]

def trueWords : List String := ["yes", "Yes", "YES", "true", "True", "TRUE", "on", "On", "ON"]

def falseWords : List String := ["no", "No", "NO", "false", "False", "FALSE", "off", "Off", "OFF"]

def infinities : List String := [".inf", ".Inf", ".INF"]

def nans : List String := [".nan", ".NaN", ".NAN"]

def unsigned : List Char → List Char
  | '-' :: cs => cs
  | '+' :: cs => cs
  | cs => cs

def within (digits : String) (cs : List Char) : Bool := cs.all fun c => digits.toList.contains c

def isDigits (cs : List Char) : Bool := within "0123456789" cs

/-- Digits, perhaps grouped by underscores, of which the first is one of `first`. -/
def isGrouped (first : String) (cs : List Char) : Bool :=
  !cs.isEmpty && within first (cs.take 1) && within "0123456789_" cs

def isSixtieth (cs : List Char) : Bool :=
  match cs with
  | [c] => isDigits [c]
  | [c, d] => within "012345" [c] && isDigits [d]
  | _ => false

def isSexagesimal (first : String) (cs : List Char) : Bool :=
  match cs.splitOn ':' with
  | ds :: p :: ps => isGrouped first ds && (p :: ps).all isSixtieth
  | _ => false

def isWhole (cs : List Char) : Bool :=
  match unsigned cs with
  | ['0'] => true
  | '0' :: 'b' :: ds => !ds.isEmpty && within "01_" ds
  | '0' :: 'x' :: ds => !ds.isEmpty && within "0123456789abcdefABCDEF_" ds
  | '0' :: ds => within "01234567_" ds
  | ds => isGrouped "123456789" ds || isSexagesimal "123456789" ds

def isExponent : List Char → Bool
  | [] => true
  | e :: s :: ds => (e == 'e' || e == 'E') && (s == '+' || s == '-') && !ds.isEmpty && isDigits ds
  | _ => false

def isFraction (cs : List Char) : Bool :=
  let body := unsigned cs
  match Text.cut '.' body with
  | (_, none) => false
  | (whole, some r) =>
    let digits := r.takeWhile fun c => isDigits [c] || c == '_'
    let tail := r.dropWhile fun c => isDigits [c] || c == '_'
    isGrouped "0123456789" whole && isExponent tail ||
      isSexagesimal "0123456789" whole && tail.isEmpty ||
      cs.head? == some '.' && isGrouped "0123456789" digits && isExponent tail ||
      infinities.contains (.ofList body) || nans.contains (.ofList cs)

def dropFeed (cs : List Char) : List Char :=
  match cs.reverse with
  | '\n' :: r => r.reverse
  | _ => cs

def ofPlain (text : List Char) : Tag :=
  let cs := dropFeed text
  let s := String.ofList cs
  if trueWords.contains s || falseWords.contains s then bool
  else if isFraction cs then float
  else if isWhole cs then int
  else if s = "<<" then merge
  else if nullWords.contains s then null
  else if Timestamp.isPlain cs then timestamp
  else if s = "=" then value
  else str

end Tag

end ApiScaffold.Yaml
