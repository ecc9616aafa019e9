import ApiScaffold.Field.Basic
import ApiScaffold.Field.Rule
import ApiScaffold.Json.Printer

namespace ApiScaffold

/-- A validator before refinement; `other` is one that no kind of field has. -/
inductive Validator.Base
  | string | number | boolean | any
  | other (text : String)
  deriving DecidableEq, Repr

namespace Validator.Base

def text : Validator.Base → String
  | string => "z.string()"
  | number => "z.number()"
  | boolean => "z.boolean()"
  | any => "z.any()"
  | other t => t

def ofText (t : String) : Validator.Base :=
  if t = "z.string()" then string
  else if t = "z.number()" then number
  else if t = "z.boolean()" then boolean
  else if t = "z.any()" then any
  else other t

def ofKind : FieldKind → Validator.Base
  | .string => string
  | .number => number
  | .boolean => boolean
  | .unknown => any

end Validator.Base

inductive Validator
  | plain (base : Validator.Base)
  | email (base : Validator.Base)
  | atLeast (base : Validator.Base) (limit : Number)
  | atMost (base : Validator.Base) (limit : Number)
  | oneOf (literals : List String)
  deriving DecidableEq, Repr

namespace Validator

def enumText (literals : List String) : String :=
  "z.enum([" ++ ", ".intercalate (literals.map Json.quote) ++ "])"

def text : Validator → String
  | plain b => b.text
  | email b => b.text ++ ".email()"
  | atLeast b n => b.text ++ ".min(" ++ n.text ++ ")"
  | atMost b n => b.text ++ ".max(" ++ n.text ++ ")"
  | oneOf ls => enumText ls

end Validator

namespace Rule

def appliesTo (r : Rule) (b : Validator.Base) : Bool :=
  match r.kind with
  | .absent | .unknown => false
  | .oneOf _ => true
  | .email => b == .string
  | .bound _ _ => b == .string || b == .number

def compile (r : Rule) (b : Validator.Base) : Validator :=
  if r.appliesTo b then
    match r.kind with
    | .email => .email b
    | .bound key n => if key.isLower then .atLeast b n else .atMost b n
    | .oneOf ls => .oneOf ls
    | .absent | .unknown => .plain b
  else .plain b

def firstLiteral? (r : Rule) : Option String :=
  match r.kind with
  | .oneOf ls => ls.head?
  | _ => none

end Rule

end ApiScaffold
