import ApiScaffold.Feature.Basic
import ApiScaffold.Settings
import ApiScaffold.Text.Article

namespace ApiScaffold

structure FieldSheet where
  name : String
  key : String
  member : String
  staticType : String
  schemaExpression : String
  deriving DecidableEq, Repr

structure FeatureSheet where
  name : String
  className : String
  useCase : String
  fields : List FieldSheet
  validatorSchema : String
  sample : String
  route : String
  article : String
  testId : String
  /-- Whether an empty body can fail validation. -/
  hasRequired : Bool
  deriving DecidableEq, Repr

namespace FieldSheet

def ofMapping (m : Mapping) : FieldSheet :=
  ⟨m.name, m.key, m.member, m.kind.staticType, m.kind.schemaExpression⟩

end FieldSheet

def withArticle (name : String) : Except Failure String :=
  if name = "" then .error (.noPhrase "str") else .ok (Text.withArticle name)

namespace FeatureSheet

def ofMappings (name phrase : String) (ms : List Mapping) (s : Settings) : FeatureSheet where
  name := name
  className := Text.capitalize name
  useCase := Identifier.useCaseClass name
  fields := ms.map FieldSheet.ofMapping
  validatorSchema := Mapping.schema "  " ms
  sample := Mapping.sampleJson ms
  route := s.route name
  article := phrase
  testId := "123"
  hasRequired := ms.any fun m => m.validator != .plain .any

def ofFeature (f : Feature) (s : Settings) : Except Failure FeatureSheet := do
  let ms ← Mapping.ofFields f.fields
  let phrase ← withArticle f.name
  .ok (ofMappings f.name phrase ms s)

end FeatureSheet

end ApiScaffold
