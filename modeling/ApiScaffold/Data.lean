import ApiScaffold.Decimal.Number
import ApiScaffold.Spelled

namespace ApiScaffold

inductive Data
  | null
  | bool (b : Bool)
  | number (n : Number)
  /-- The float that is no number. -/
  | nan
  | str (s : String)
  /-- A text with half of a surrogate pair in it, by its code points. -/
  | halved (codes : List Nat)
  | bytes (bs : List UInt8)
  | date (d : Date)
  | moment (m : Moment)
  | list (items : List Data)
  | pair (first second : Data)
  | set (items : List Data)
  | mapping (entries : List (Data × Data))
  /-- The list, or else the mapping, in which it stands itself. -/
  | enclosing (isMapping : Bool)

namespace Data

def ofCodes (codes : List Nat) : Data :=
  match Text.ofCodes? codes with
  | some s => .str s
  | none => .halved codes

def kindName : Data → String
  | null => "NoneType"
  | bool _ => "bool"
  | number (.int _) => "int"
  | number (.float _) | nan => "float"
  | str _ | halved _ => "str"
  | bytes _ => "bytes"
  | date _ => "date"
  | moment _ => "datetime"
  | list _ | enclosing false => "list"
  | pair _ _ => "tuple"
  | set _ => "set"
  | mapping _ | enclosing true => "dict"

def entry? (key : String) : Data → Option Data
  | mapping entries =>
    entries.foldl (fun found p => match p.1 with
      | str k => if k = key then some p.2 else found
      | _ => found) none
  | _ => none

def boolText (b : Bool) : String := if b then "True" else "False"

mutual

def literal : Data → String
  | null => "None"
  | bool b => boolText b
  | number n => n.text
  | nan => "nan"
  | str s => Text.literal s
  | halved codes => Text.codesLiteral codes
  | bytes bs => Text.bytesLiteral bs
  | date d => d.text
  | moment m => m.text
  | list items => "[" ++ ", ".intercalate (literals items) ++ "]"
  | pair a b => "(" ++ literal a ++ ", " ++ literal b ++ ")"
  | set [] => "set()"
  | set items => "\x7b" ++ ", ".intercalate (literals items) ++ "\x7d"
  | mapping entries => "\x7b" ++ ", ".intercalate (entryLiterals entries) ++ "\x7d"
  | enclosing isMapping => if isMapping then "\x7b...\x7d" else "[...]"

def literals : List Data → List String
  | [] => []
  | d :: ds => literal d :: literals ds

def entryLiterals : List (Data × Data) → List String
  | [] => []
  | (k, v) :: es => (literal k ++ ": " ++ literal v) :: entryLiterals es

end

mutual

/-- Whether a whole number in a value is too long for its literal to be written. -/
def isUnwritable : Data → Bool
  | number (.int n) => Number.isLong n
  | list items | set items => anyUnwritable items
  | pair a b => isUnwritable a || isUnwritable b
  | mapping entries => entryUnwritable entries
  | _ => false

def anyUnwritable : List Data → Bool
  | [] => false
  | d :: ds => isUnwritable d || anyUnwritable ds

def entryUnwritable : List (Data × Data) → Bool
  | [] => false
  | (k, v) :: es => isUnwritable k || isUnwritable v || entryUnwritable es

end

/-- A value put into a text: a text as it is, anything else as its literal. -/
def shown : Data → String
  | str s => s
  | halved codes => Text.shownCodes codes
  | d => literal d

/-- Whether a value counts as something: not empty, not zero, not false, not null. -/
def truthy : Data → Bool
  | null => false
  | bool b => b
  | number n => n.value != .finite 0
  | str s => s != ""
  | bytes bs => !bs.isEmpty
  | list items | set items => !items.isEmpty
  | mapping entries => !entries.isEmpty
  | nan | halved _ | date _ | moment _ | pair _ _ | enclosing _ => true

def isHashable : Data → Bool
  | list _ | set _ | mapping _ | enclosing _ => false
  | pair a b => isHashable a && isHashable b
  | _ => true

def numeric? : Data → Option Extended
  | bool b => some (.finite (if b then 1 else 0))
  | number n => some n.value
  | _ => none

/-- Whether two keys are one: of one value, of whatever kind of number. -/
def isSameKey : Data → Data → Bool
  | null, null | nan, nan => true
  | str a, str b => a == b
  | halved a, halved b => a == b
  | bytes a, bytes b => a == b
  | date a, date b => a == b
  | moment a, moment b => a.agrees b
  | a, b =>
    match a.numeric?, b.numeric? with
    | some x, some y => x == y
    | _, _ => false

/-- Puts an entry among others: an equal key that is there keeps its place and gets the new value. -/
def putEntry (k v : Data) : List (Data × Data) → List (Data × Data)
  | [] => [(k, v)]
  | e :: es => if e.1.isSameKey k then (e.1, v) :: es else e :: putEntry k v es

def entriesOf (es : List (Data × Data)) : List (Data × Data) :=
  es.foldl (fun t e => putEntry e.1 e.2 t) []

end Data

end ApiScaffold
