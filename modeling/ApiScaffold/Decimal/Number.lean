import ApiScaffold.Decimal.Shortest
import ApiScaffold.Failure
import ApiScaffold.Text.Cut

namespace ApiScaffold

inductive Extended
  | finite (r : Rat)
  | infinite (negative : Bool)
  deriving DecidableEq, Repr

namespace Extended

def lt : Extended → Extended → Bool
  | finite a, finite b => a < b
  | finite _, infinite s => !s
  | infinite s, finite _ => s
  | infinite s, infinite t => s && !t

end Extended

inductive Number
  | int (n : Int)
  | float (x : Binary64)
  deriving DecidableEq, Repr

namespace Number

def value : Number → Extended
  | int n => .finite n
  | float (.finite s m e) => .finite (if s then -Binary64.magnitude m e else Binary64.magnitude m e)
  | float (.infinite s) => .infinite s

def lt (a b : Number) : Bool := a.value.lt b.value

def intText (n : Int) : String :=
  .ofList (if n < 0 then '-' :: Text.digitsOf n.natAbs else Text.digitsOf n.natAbs)

/-- Whether a whole number has more digits than may be written. -/
def isLong (n : Int) : Bool := Nat.pow 10 Failure.digitLimit ≤ n.natAbs

def written (n : Int) : Except Failure String := if isLong n then .error .unwritable else .ok (intText n)

def text : Number → String
  | int n => intText n
  | float x => x.text

def ceil (x : Number) : Except Failure Int :=
  match x.value with
  | .finite r => .ok r.ceil
  | .infinite _ => .error .infiniteWidth

def floor (x : Number) : Except Failure Int :=
  match x.value with
  | .finite r => .ok r.floor
  | .infinite _ => .error .infiniteWidth

/-- The whole number that a row of digits denotes, unless the row is too long. -/
def wholeOf (digits : List Char) : Except Failure Nat :=
  if Failure.digitLimit < digits.length then .error (.longNumeral digits.length)
  else .ok (Text.digitsValue digits)

/-- An optional minus sign, digits, and optionally a point and digits; nothing for any other text. -/
def read? (cs : List Char) : Except Failure (Option Number) :=
  let (negative, body) := match cs with
    | '-' :: ds => (true, ds)
    | ds => (false, ds)
  match Text.cut '.' body with
  | (ds, none) =>
    if !ds.isEmpty && ds.all Text.isDigit then
      (wholeOf ds).map fun n => some (.int (if negative then -n else n))
    else .ok none
  | (ds, some fs) =>
    if !ds.isEmpty && ds.all Text.isDigit && !fs.isEmpty && fs.all Text.isDigit then
      let all := Text.digitsValue (ds ++ fs)
      .ok (some (.float (.nearest negative ((all : Rat) / (Nat.pow 10 fs.length : Rat)))))
    else .ok none

end Number

end ApiScaffold
