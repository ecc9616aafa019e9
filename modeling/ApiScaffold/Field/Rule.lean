import ApiScaffold.Decimal.Number
import ApiScaffold.Text.Character

namespace ApiScaffold

inductive BoundKey
  | minLength | maxLength | min | max
  deriving DecidableEq, Repr

namespace BoundKey

def ofToken? (key : List Char) : Option BoundKey :=
  if key = "minlength".toList then some minLength
  else if key = "maxlength".toList then some maxLength
  else if key = "min".toList then some min
  else if key = "max".toList then some max
  else none

def isLower : BoundKey → Bool
  | minLength | min => true
  | maxLength | max => false

end BoundKey

inductive Rule.Kind
  | absent
  | email
  | bound (key : BoundKey) (limit : Number)
  | oneOf (literals : List String)
  | unknown
  deriving DecidableEq, Repr

/-- A rule with the trimmed text it was read from. -/
structure Rule where
  token : String
  kind : Rule.Kind
  deriving DecidableEq, Repr

namespace Rule

def literals (payload : List Char) : List String :=
  ((payload.splitOn '|').filter fun l => !l.isEmpty).map String.ofList

def enumKind (payload : List Char) : Kind :=
  match literals payload with
  | [] => .unknown
  | ls => .oneOf ls

def boundKind (key payload : List Char) : Except Failure Kind := do
  match ← Number.read? (Text.strip payload), BoundKey.ofToken? key with
  | some limit, some k => .ok (.bound k limit)
  | _, _ => .ok .unknown

def readKind (cs : List Char) : Except Failure Kind :=
  if cs = [] then .ok .absent
  else if cs = "email".toList then .ok .email
  else
    match Text.cut '=' cs with
    | (_, none) => .ok .unknown
    | (key, some payload) =>
      if key = "enum".toList then .ok (enumKind payload) else boundKind key payload

def read (token : String) : Except Failure Rule :=
  (readKind (Text.strip token.toList)).map fun k => ⟨Text.trim token, k⟩

def isAbsent (r : Rule) : Bool := r.kind == .absent

end Rule

end ApiScaffold
