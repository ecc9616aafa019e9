import ApiScaffold.Settings
import ApiScaffold.Text.Character

namespace ApiScaffold.Settings.Numeral

def isDigit (c : Char) : Bool := '0' ≤ c && c ≤ '9'

def isPositive (c : Char) : Bool := '1' ≤ c && c ≤ '9'

def signed : List Char → Bool × List Char
  | '-' :: cs => (true, cs)
  | cs => (false, cs)

/-- A minus sign at most and digits, without needless zeros. Too long a numeral is refused whatever follows
it, and the sign counts as a digit there. -/
def plain (cs : List Char) : Except Problem Int :=
  let (negative, body) := signed cs
  let ds := body.takeWhile isDigit
  if body.head? = some '0' then if body.length = 1 then .ok 0 else .error .unreadable
  else if ds.isEmpty then .error .unreadable
  else if Failure.digitLimit < ds.length + (if negative then 1 else 0) then .error .tooLarge
  else if ds.length < body.length then .error .unreadable
  else
    let n : Int := Text.digitsValue ds
    .ok (if negative then -n else n)

/-- White space around a numeral, which the separators U+001C to U+001F are not. -/
def isMargin (c : Char) : Bool := Text.isBlank c && !(0x1c ≤ c.toNat && c.toNat ≤ 0x1f)

def trim (cs : List Char) : List Char :=
  ((cs.dropWhile isMargin).reverse.dropWhile isMargin).reverse

/-- What follows leading zeros, of which `last` is the one before; underscores may stand among them. A zero
is left where no other digit follows. -/
def afterZeros (last : Char) : List Char → Option (List Char)
  | [] => some [last]
  | c :: cs =>
    if c == '0' || c == '_' then afterZeros c cs
    else if isPositive c || c == '-' then some (c :: cs)
    else if c == '.' then some (last :: c :: cs)
    else none

def dropZeros : List Char → Option (List Char)
  | [] => none
  | c :: cs => if c == '0' then afterZeros c cs else if isPositive c then some (c :: cs) else none

def dropLead (cs : List Char) : Option (List Char) :=
  match cs with
  | '+' :: r => dropZeros r
  | '-' :: r => (dropZeros r).map ('-' :: ·)
  | r => dropZeros r

def dropFraction (cs : List Char) : List Char :=
  match Text.cut '.' cs with
  | (ds, some zs) => if !zs.isEmpty && zs.all (· == '0') then ds else cs
  | (_, none) => cs

def ungroup (cs : List Char) : List Char :=
  if (cs.splitOn '_').all fun g => !g.isEmpty then cs.filter (· != '_') else cs

def tidy (cs : List Char) : Option (List Char) :=
  (dropLead (trim cs)).map fun r => ungroup (dropFraction r)

def read (s : String) : Except Problem Int :=
  match plain s.toList with
  | .ok n => .ok n
  | .error .unreadable =>
    match tidy s.toList with
    | some cs => plain cs
    | none => .error .unreadable
  | .error p => .error p

end ApiScaffold.Settings.Numeral
