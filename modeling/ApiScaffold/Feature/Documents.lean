import ApiScaffold.Document
import ApiScaffold.Feature.Modules

namespace ApiScaffold

inductive FeatureDocument
  | container | entity | repositoryInterface | useCase | model | dataSource | repository | middleware
  | controller | useCaseTest | controllerTest
  deriving DecidableEq, Repr

namespace FeatureDocument

def all : List FeatureDocument := [container, entity, repositoryInterface, useCase, model, dataSource,
  repository, middleware, controller, useCaseTest, controllerTest]

def module (d : FeatureDocument) (s : FeatureSheet) : TypeScript.Module :=
  match d with
  | container => FeatureModule.container s
  | entity => FeatureModule.entity s
  | repositoryInterface => FeatureModule.repositoryInterface s
  | useCase => FeatureModule.useCase s
  | model => FeatureModule.model s
  | dataSource => FeatureModule.dataSource s
  | repository => FeatureModule.repository s
  | middleware => FeatureModule.middleware s
  | controller => FeatureModule.controller s
  | useCaseTest => FeatureModule.useCaseTest s
  | controllerTest => FeatureModule.controllerTest s

def path (d : FeatureDocument) (f : String) : String :=
  match d with
  | container => s!"{Feature.folder f}/container.ts"
  | entity => s!"{Feature.folder f}/domain/entity/{f}.entity.ts"
  | repositoryInterface => s!"{Feature.folder f}/domain/repositories/{f}.repository.interface.ts"
  | useCase => s!"{Feature.folder f}/domain/usecases/create-{f}.usecase.ts"
  | model => s!"{Feature.folder f}/data/models/{f}.model.ts"
  | dataSource => s!"{Feature.folder f}/data/datasources/{f}.datasource.ts"
  | repository => s!"{Feature.folder f}/data/repositories/{f}.repository.ts"
  | middleware => s!"{Feature.folder f}/delivery/middlewares/validate-{f}.middleware.ts"
  | controller => s!"{Feature.folder f}/delivery/controllers/{f}.controller.ts"
  | useCaseTest => s!"{Feature.testFolder f}/{f}.usecase.test.ts"
  | controllerTest => s!"{Feature.testFolder f}/{f}.controller.test.ts"

def document (s : FeatureSheet) (d : FeatureDocument) : Document := ⟨d.path s.name, (d.module s).text⟩

end FeatureDocument

namespace Feature

def documents (f : Feature) (s : Settings) : Except Failure (List Document) :=
  (FeatureSheet.ofFeature f s).map fun sheet => FeatureDocument.all.map (FeatureDocument.document sheet)

end Feature

end ApiScaffold
