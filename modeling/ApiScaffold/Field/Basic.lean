import ApiScaffold.Text.Character
import ApiScaffold.Text.Cut

namespace ApiScaffold

inductive FieldKind
  | string | number | boolean | unknown
  deriving DecidableEq, Repr

namespace FieldKind

def ofToken (token : String) : FieldKind :=
  if token = "string" then string
  else if token = "number" then number
  else if token = "boolean" then boolean
  else unknown

def staticType : FieldKind → String
  | string => "string"
  | number => "number"
  | boolean => "boolean"
  | unknown => "any"

def schemaType : FieldKind → String
  | string => "String"
  | number => "Number"
  | boolean => "Boolean"
  | unknown => "Mixed"

def schemaExpression : FieldKind → String
  | unknown => "Schema.Types.Mixed"
  | k => k.schemaType

end FieldKind

/-- A declared field; the words for type and rule are kept as they were written. -/
structure Field where
  name : String
  typeName : String
  rule : String
  deriving DecidableEq, Repr

namespace Field

def ofEntry (cs : List Char) : Field :=
  let (name, rest) := Text.cut ':' cs
  let (typeName, rule) := Text.cut ':' (rest.getD [])
  ⟨.ofList (Text.strip name), .ofList (Text.strip typeName), .ofList (Text.strip (rule.getD []))⟩

def entries (spec : String) : List (List Char) := spec.toList.splitOn ','

def isBlankEntry (cs : List Char) : Bool := cs.all Text.isBlank

def readSpec (spec : String) : List Field :=
  ((entries spec).filter fun e => !isBlankEntry e).map ofEntry

def token (f : Field) : String :=
  f.name ++ ":" ++ f.typeName ++ (if f.rule = "" then "" else ":" ++ f.rule)

def writeSpec (fs : List Field) : String := ",".intercalate (fs.map token)

def canonical (spec : String) : String := writeSpec (readSpec spec)

def defaultSpec : String := "name:string:minlength=3,email:string:email"

/-- The fields of a specification, or of `fallback` when it is missing or declares none. -/
def resolve (spec : Option String) (fallback : String) : List Field :=
  match readSpec (spec.getD "") with
  | [] => readSpec fallback
  | fs => fs

end Field

end ApiScaffold
