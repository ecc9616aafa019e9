import ApiScaffold.Decimal.Number
import ApiScaffold.Text.Character

namespace ApiScaffold

namespace Binary64

def finite? : Binary64 → Option Rat
  | finite s m e => some (if s then -magnitude m e else magnitude m e)
  | infinite _ => none

def ofRat (zeroNegative : Bool) (r : Rat) : Binary64 :=
  if r = 0 then finite zeroNegative 0 (-1074)
  else if r < 0 then nearest true (-r)
  else nearest false r

/-- The sum, unless two infinities of opposite signs meet. -/
def add? (x y : Binary64) : Option Binary64 :=
  match x, y with
  | infinite s, infinite t => if s = t then some (infinite s) else none
  | infinite s, _ | _, infinite s => some (infinite s)
  | x, y => do
    let a ← x.finite?
    let b ← y.finite?
    some (ofRat (x.isNegative && y.isNegative) (a + b))

def scale (x : Binary64) (n : Nat) : Binary64 :=
  match x with
  | infinite s => infinite s
  | x => ofRat x.isNegative ((x.finite?.getD 0) * n)

def negate : Binary64 → Binary64
  | finite s m e => finite (!s) m e
  | infinite s => infinite (!s)

end Binary64

abbrev Fraction := Option Binary64

namespace Fraction

def signed (cs : List Char) : Bool × List Char :=
  match cs with
  | '-' :: r => (true, r)
  | '+' :: r => (false, r)
  | r => (false, r)

def digitsOnly (cs : List Char) : Bool := cs.all Text.isDigit

def exponent? : List Char → Option Int
  | [] => some 0
  | c :: cs =>
    let (negative, ds) := signed cs
    if (c = 'e' ∨ c = 'E') ∧ ds ≠ [] ∧ digitsOnly ds then
      some (if negative then -(Text.digitsValue ds : Int) else Text.digitsValue ds)
    else none

def positive? (negative : Bool) (cs : List Char) : Option Binary64 := do
  let (mantissa, tail) := cs.span fun c => Text.isDigit c || c == '.'
  let e ← exponent? tail
  let (ds, fs) := Text.cut '.' mantissa
  let fs := fs.getD []
  if (ds ++ fs).isEmpty || !digitsOnly (ds ++ fs) then none
  some (.ofDecimal negative (Text.digitsValue (ds ++ fs)) (e - fs.length))

def infinities : List String := ["inf", "infinity"]

/-- The number that a text denotes, or that it is none; nothing for any other text. -/
def read? (s : List Char) : Option Fraction :=
  let (negative, cs) := signed (Text.strip s)
  let word := String.ofList (cs.map Char.toLower)
  if infinities.contains word then some (some (.infinite negative))
  else if word = "nan" then some none
  else (positive? negative cs).map some

def read (s : List Char) : Except Failure Fraction :=
  match read? s with
  | some x => .ok x
  | none => .error (.noFraction (.ofList s))

end Fraction

end ApiScaffold
