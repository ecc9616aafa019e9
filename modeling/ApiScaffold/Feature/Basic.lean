import ApiScaffold.Field.Mapping

namespace ApiScaffold

structure Feature where
  name : String
  fields : List Field
  deriving DecidableEq, Repr

namespace Feature

def build (name : String) (spec : Option String) (fallback : String) : Feature :=
  ⟨name, Field.resolve spec fallback⟩

def folder (name : String) : String := "Features/" ++ name

def testFolder (name : String) : String := "__tests__/Features/" ++ name

def ownFolders : List String := [
  "domain/entity", "domain/usecases", "domain/repositories", "data/repositories", "data/datasources",
  "data/models", "delivery/routes", "delivery/controllers", "delivery/middlewares"]

/-- The directories of a feature, some of which stay empty. -/
def directories (name : String) : List String :=
  ownFolders.map (fun d => folder name ++ "/" ++ d) ++ [testFolder name]

end Feature

end ApiScaffold
