import ApiScaffold.Decimal.Binary64
import ApiScaffold.Text.Character

namespace ApiScaffold.Binary64

/-- How many digits stand before the point; none or fewer below one. -/
def places (r : Rat) : Int :=
  let p : Int := (Nat.toDigits 10 r.num.toNat).length - (Nat.toDigits 10 r.den).length
  if power 10 p ≤ r then p + 1 else p

/-- Of the two multiples of a power of ten around `r`, those that read back to `x`, the closer first. -/
def around (x : Binary64) (negative : Bool) (r : Rat) (exponent : Int) : Option Nat :=
  let scaled := r * power 10 (-exponent)
  let below := scaled.floor.toNat
  let candidates :=
    if roundDiv scaled.num.toNat scaled.den = below then [below, below + 1] else [below + 1, below]
  candidates.find? fun d => nearest negative ((d : Rat) * power 10 exponent) = x

/-- Digits and the exponent of the last one, for a number that is finite and not zero. -/
def shortest? (negative : Bool) (mantissa : Nat) (exponent : Int) : Option (Nat × Int) :=
  let r := magnitude mantissa exponent
  let p := places r
  (List.range 17).findSome? fun n =>
    let e := p - (n + 1 : Nat)
    (around (finite negative mantissa exponent) negative r e).map fun d => (d, e)

/-- All digits of the number itself, which always read back. -/
def exactDigits (mantissa : Nat) (exponent : Int) : Nat × Int :=
  if 0 ≤ exponent then (mantissa * Nat.pow 2 exponent.toNat, 0)
  else (mantissa * Nat.pow 5 (-exponent).toNat, exponent)

def dropZeros : List Char → Int → List Char × Int
  | '0' :: ds, e => dropZeros ds (e + 1)
  | ds, e => (ds, e)

def exponentText (e : Int) : List Char :=
  let ds := Text.digitsOf e.natAbs
  (if e < 0 then '-' else '+') :: (if ds.length < 2 then '0' :: ds else ds)

def layout (ds : List Char) (p : Int) : List Char :=
  if p < -3 ∨ 16 < p then
    match ds with
    | [] => []
    | [d] => d :: 'e' :: exponentText (p - 1)
    | d :: ds => d :: '.' :: ds ++ 'e' :: exponentText (p - 1)
  else if p ≤ 0 then '0' :: '.' :: List.replicate (-p).toNat '0' ++ ds
  else if ds.length ≤ p.toNat then ds ++ List.replicate (p.toNat - ds.length) '0' ++ ['.', '0']
  else ds.take p.toNat ++ '.' :: ds.drop p.toNat

def positiveText (negative : Bool) (mantissa : Nat) (exponent : Int) : List Char :=
  if mantissa = 0 then ['0', '.', '0']
  else
    let (n, e) := (shortest? negative mantissa exponent).getD (exactDigits mantissa exponent)
    let (ds, e) := dropZeros (Text.digitsOf n).reverse e
    layout ds.reverse (ds.length + e)

def signed (negative : Bool) (cs : List Char) : String := .ofList (if negative then '-' :: cs else cs)

def text : Binary64 → String
  | finite s m e => signed s (positiveText s m e)
  | infinite s => signed s ['i', 'n', 'f']

end ApiScaffold.Binary64
