import ApiScaffold.Feature.Basic
import ApiScaffold.Review

namespace ApiScaffold

inductive Feature.Warning
  | featureName (name : String)
  | unnamed (token feature : String)
  | fieldName (label : String)
  | repeated (label : String)
  | clash (label : String)
  | unknownType (typeName label : String)
  | unknownRule (rule label : String)
  | idleRule (rule typeName label : String)
  deriving DecidableEq, Repr

namespace Feature

def Warning.message : Warning → String
  | featureName n =>
    s!"Feature name '{n}' is not a valid JavaScript identifier; the generated sources will not compile"
  | unnamed t f => s!"Field '{t}' in '{f}' has no name"
  | fieldName l => s!"Field name '{l}' is not a valid JavaScript identifier"
  | repeated l => s!"Field name '{l}' is declared more than once"
  | clash l => s!"Field name '{l}' clashes with the generated entity id"
  | unknownType t l => s!"Unknown type '{t}' for '{l}'; using the permissive fallback"
  | unknownRule r l => s!"Unrecognized rule '{r}' for '{l}' is ignored"
  | idleRule r t l => s!"Rule '{r}' does not apply to type '{t}' of '{l}' and is ignored"

def label (feature : String) (f : Field) : String :=
  feature ++ "." ++ (if f.name = "" then "<empty>" else f.name)

def nameWarnings (feature : String) (f : Field) : List Warning :=
  if f.name = "" then [.unnamed f.token feature]
  else if Identifier.isValid f.name then []
  else [.fieldName (label feature f)]

def ruleWarnings (feature : String) (f : Field) (r : Rule) : List Warning :=
  match r.kind with
  | .absent => []
  | .unknown => [.unknownRule f.rule (label feature f)]
  | _ =>
    if r.appliesTo (.ofKind (.ofToken f.typeName)) then []
    else [.idleRule f.rule f.typeName (label feature f)]

/-- The warnings about a field that comes after fields with the names `seen`. -/
def fieldWarnings (feature : String) (seen : List String) (f : Field) : Except Failure (List Warning) := do
  let r ← Rule.read f.rule
  .ok (nameWarnings feature f ++
    (if seen.contains f.name then [.repeated (label feature f)] else []) ++
    (if f.name = "id" then [.clash (label feature f)] else []) ++
    (if FieldKind.ofToken f.typeName = .unknown then [.unknownType f.typeName (label feature f)] else []) ++
    ruleWarnings feature f r)

def warningsAfter (feature : String) : List String → List Field → Except Failure (List Warning)
  | _, [] => .ok []
  | seen, f :: fs => do
    let ws ← fieldWarnings feature seen f
    let rest ← warningsAfter feature (f.name :: seen) fs
    .ok (ws ++ rest)

def reviewFields (f : Feature) : Except Failure Review :=
  (warningsAfter f.name [] f.fields).map fun ws => .of true [] (ws.map Warning.message)

def reviewName (name : String) : Review :=
  if name = "" then Review.clean.addError "Feature name cannot be empty"
  else if Identifier.isValid name then .clean
  else Review.clean.addWarning (Warning.featureName name).message

def review (f : Feature) : Except Failure Review :=
  (reviewFields f).map fun r => (reviewName f.name).merge r

end Feature

end ApiScaffold
