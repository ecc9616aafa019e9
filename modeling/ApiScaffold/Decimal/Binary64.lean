namespace ApiScaffold

/-- A finite number is `mantissa · 2 ^ exponent`; zero keeps its sign. -/
inductive Binary64
  | finite (negative : Bool) (mantissa : Nat) (exponent : Int)
  | infinite (negative : Bool)
  deriving DecidableEq, Repr

namespace Binary64

def power (base : Nat) (e : Int) : Rat :=
  if 0 ≤ e then (Nat.pow base e.toNat : Rat) else 1 / (Nat.pow base (-e).toNat : Rat)

def magnitude (mantissa : Nat) (exponent : Int) : Rat := (mantissa : Rat) * power 2 exponent

def roundDiv (num den : Nat) : Nat :=
  let q := num / den
  let r := num % den
  if 2 * r < den then q else if den < 2 * r then q + 1 else q + q % 2

def lastBit (r : Rat) : Int :=
  let span : Int := (Nat.log2 r.num.toNat : Int) - (Nat.log2 r.den : Int)
  max (if power 2 span ≤ r then span - 52 else span - 53) (-1074)

def ofParts (negative : Bool) (mantissa : Nat) (exponent : Int) : Binary64 :=
  let (m, e) := if mantissa = Nat.pow 2 53 then (Nat.pow 2 52, exponent + 1) else (mantissa, exponent)
  if 971 < e then infinite negative else finite negative m e

/-- The number closest to `r`, which is not negative, with the given sign. -/
def nearest (negative : Bool) (r : Rat) : Binary64 :=
  if r.num ≤ 0 then finite negative 0 (-1074)
  else
    let e := lastBit r
    let scaled := r * power 2 (-e)
    ofParts negative (roundDiv scaled.num.toNat scaled.den) e

/-- The number closest to `digits · 10 ^ exponent`; far beyond the range it need not be computed. -/
def ofDecimal (negative : Bool) (digits : Nat) (exponent : Int) : Binary64 :=
  let places : Int := (Nat.toDigits 10 digits).length
  if digits = 0 ∨ places + exponent < -400 then finite negative 0 (-1074)
  else if 400 < places + exponent then infinite negative
  else nearest negative ((digits : Rat) * power 10 exponent)

def isNegative : Binary64 → Bool
  | finite s _ _ => s
  | infinite s => s

end Binary64

end ApiScaffold
