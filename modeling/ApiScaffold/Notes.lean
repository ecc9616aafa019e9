import ApiScaffold.Feature.Documents
import ApiScaffold.Log

namespace ApiScaffold

def note (message : String) : Record := ⟨.debug, message⟩

namespace Field

def blankNotes (spec : String) : List Record :=
  ((entries spec).filter isBlankEntry).map fun _ => note s!"Skipping empty field entry in '{spec}'"

def resolveNotes (spec : Option String) (fallback : String) : List Record :=
  let spec := spec.getD ""
  (if spec = "" then [] else blankNotes spec) ++
    (if (readSpec spec).isEmpty then
      note s!"No fields given, using default fields '{fallback}'" :: blankNotes fallback
    else [])

end Field

namespace Mapping

def notes (m : Mapping) : List Record :=
  let base := Validator.Base.ofKind (.ofToken m.field.typeName)
  if m.rule.isAbsent || m.rule.appliesTo base then []
  else [note s!"Ignoring rule '{m.rule.token}' for validator {base.text}"]

def notesOf : List Field → List Record
  | [] => []
  | f :: fs =>
    match ofField f with
    | .ok m => m.notes ++ notesOf fs
    | .error _ => []

end Mapping

namespace Feature

def documentNotes (f : Feature) : List Record :=
  Mapping.notesOf f.fields ++ FeatureDocument.all.map fun d => note ("Rendered " ++ d.path f.name)

end Feature

end ApiScaffold

namespace ApiScaffold.Project

/-- The notes on features as they are registered, after those with the names `seen`; they end with one
whose fields cannot be mapped. -/
def registryNotes (seen : List String) : List Feature → List Record
  | [] => []
  | f :: fs =>
    Mapping.notesOf f.fields ++
      match Mapping.ofFields f.fields with
      | .error _ => []
      | .ok _ =>
        (if seen.contains f.name then [note s!"Feature '{f.name}' is already wired; refreshing its entry"]
          else []) ++ registryNotes (f.name :: seen) fs

def notes (fs : List Feature) : List Record :=
  registryNotes [] fs ++
    if fs.all fun f => (Mapping.ofFields f.fields).toBool then fs.flatMap Feature.documentNotes else []

end ApiScaffold.Project
