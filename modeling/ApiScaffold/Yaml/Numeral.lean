import ApiScaffold.Decimal.Arithmetic
import ApiScaffold.Data
import ApiScaffold.Yaml.Character

namespace ApiScaffold.Yaml.Numeral

def ungroup (cs : List Char) : List Char := cs.filter (· != '_')

def signed (cs : List Char) : Bool × List Char := Fraction.signed cs

def digit? (c : Char) : Option Nat :=
  match Text.digit? c with
  | some n => some n
  | none =>
    if 'a' ≤ c ∧ c ≤ 'z' then some (c.toNat - 87)
    else if 'A' ≤ c ∧ c ≤ 'Z' then some (c.toNat - 55)
    else none

def isDigitOf (base : Nat) (c : Char) : Bool := (digit? c).any (· < base)

def baseLetters : List (Nat × Char) := [(2, 'b'), (8, 'o'), (16, 'x')]

def dropBase (base : Nat) (cs : List Char) : List Char :=
  match cs, baseLetters.lookup base with
  | '0' :: c :: r, some l => if c.toLower = l then r else '0' :: c :: r
  | cs, _ => cs

/-- A whole number in a base, with white space around it; in base ten the digits are limited. -/
def whole (base : Nat) (text : List Char) : Except Failure Int :=
  let (negative, r) := signed (Text.strip text)
  let body := dropBase base r
  let ds := body.takeWhile (isDigitOf base)
  if base = 10 ∧ Failure.digitLimit < ds.length then .error (.longNumeral ds.length)
  else if ds.isEmpty || ds.length < body.length then .error (.noWhole base (.ofList text))
  else
    let n : Int := ds.foldl (fun n c => base * n + (digit? c).getD 0) 0
    .ok (if negative then -n else n)

/-- What parts between colons come to, each counting sixty times the next. -/
def sixties (parts : List Int) : Int := parts.foldl (fun n p => 60 * n + p) 0

def unsigned : List Char → Except Failure Int
  | [] => .error .emptyNumeral
  | ['0'] => .ok 0
  | '0' :: 'b' :: ds => whole 2 ds
  | '0' :: 'x' :: ds => whole 16 ds
  | '0' :: ds => whole 8 ('0' :: ds)
  | ds => if ds.contains ':' then ((ds.splitOn ':').mapM (whole 10)).map sixties else whole 10 ds

def int (text : List Char) : Except Failure Int :=
  let (negative, body) := signed (ungroup text)
  (unsigned body).map fun n => if negative then -n else n

def fractionData : Fraction → Data
  | some x => .number (.float x)
  | none => .nan

/-- The parts from the last on, each times a power of sixty, added in turn. -/
def fractionSum (weight : Nat) (sum : Fraction) : List Fraction → Fraction
  | [] => sum
  | x :: xs =>
    let next : Fraction := do (← sum).add? ((← x).scale weight)
    fractionSum (60 * weight) next xs

def float (text : List Char) : Except Failure Data :=
  match (ungroup text).map Char.toLower with
  | [] => .error .emptyNumeral
  | cs =>
    let (negative, body) := signed cs
    let signed := fun (x : Fraction) => fractionData (if negative then x.map Binary64.negate else x)
    if body = ".inf".toList then .ok (signed (some (.infinite false)))
    else if body = ".nan".toList then .ok .nan
    else if body.contains ':' then
      ((body.splitOn ':').mapM Fraction.read).map fun xs =>
        signed (fractionSum 1 (some (.finite false 0 (-1074))) xs.reverse)
    else (Fraction.read body).map signed

end ApiScaffold.Yaml.Numeral
