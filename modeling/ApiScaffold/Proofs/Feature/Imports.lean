import ApiScaffold.Project.Documents
import ApiScaffold.Proofs.Project.Emission
import ApiScaffold.Proofs.TypeScript.Resolution

namespace ApiScaffold

open TypeScript

namespace Project

def packages : List String := ["reflect-metadata", "tsyringe", "mongoose", "express", "zod", "supertest", "dotenv"]

def result : Placed := ⟨["Core", "result"], "result", SharedText.result⟩

def customError : Placed := ⟨["Core", "error"], "custom-error", SharedText.customError⟩

def database : Placed := ⟨["Core", "config"], "database", SharedText.database⟩

def core : List Placed := [result, customError, database]

end Project

open Project

namespace FeatureDocument

def folder (d : FeatureDocument) (n : String) : List String :=
  match d with
  | container => ["Features", n]
  | entity => ["Features", n, "domain", "entity"]
  | repositoryInterface => ["Features", n, "domain", "repositories"]
  | useCase => ["Features", n, "domain", "usecases"]
  | model => ["Features", n, "data", "models"]
  | dataSource => ["Features", n, "data", "datasources"]
  | repository => ["Features", n, "data", "repositories"]
  | middleware => ["Features", n, "delivery", "middlewares"]
  | controller => ["Features", n, "delivery", "controllers"]
  | useCaseTest | controllerTest => ["__tests__", "Features", n]

def stem (d : FeatureDocument) (n : String) : String :=
  match d with
  | container => "container"
  | entity => n ++ ".entity"
  | repositoryInterface => n ++ ".repository.interface"
  | useCase => "create-" ++ n ++ ".usecase"
  | model => n ++ ".model"
  | dataSource => n ++ ".datasource"
  | repository => n ++ ".repository"
  | middleware => "validate-" ++ n ++ ".middleware"
  | controller => n ++ ".controller"
  | useCaseTest => n ++ ".usecase.test"
  | controllerTest => n ++ ".controller.test"

def placed (d : FeatureDocument) (s : FeatureSheet) : Placed := ⟨d.folder s.name, d.stem s.name, d.module s⟩

variable {d e : FeatureDocument} {n m : String} {s : FeatureSheet}

theorem place_eq (d : FeatureDocument) (n : String) : d.place n = d.folder n ++ [d.stem n ++ ".ts"] := by
  cases d <;> simp [place, folder, stem, String.append_assoc]

theorem document_eq (d : FeatureDocument) (s : FeatureSheet) : document s d = (d.placed s).document := by
  rw [document, path_eq, place_eq]
  rfl

theorem mem_all (d : FeatureDocument) : d ∈ all := by cases d <;> decide

theorem isProper_placed (h : Path.IsEntry s.name) : (d.placed s).IsProper := by
  have hfixed : ∀ x ∈ ["Features", "domain", "data", "delivery", "entity", "repositories", "usecases", "models",
      "datasources", "middlewares", "controllers", "__tests__", "container"], Feature.Plain x := by decide
  have hafter : ∀ x ∈ [".entity", ".repository.interface", ".model", ".datasource", ".repository", ".controller",
      ".usecase.test", ".controller.test"], Feature.Plain x := by decide
  have huse : Path.IsEntry ("create-" ++ s.name ++ ".usecase") :=
    (Feature.Plain.between (by decide) (by decide)).isEntry h
  have hmiddle : Path.IsEntry ("validate-" ++ s.name ++ ".middleware") :=
    (Feature.Plain.between (by decide) (by decide)).isEntry h
  replace hfixed := fun x hx => (hfixed x hx).around.isEntry h
  replace hafter := fun x hx => (hafter x hx).after.isEntry h
  unfold Placed.IsProper Placed.parts placed
  cases d <;> simp [folder, stem, h, hfixed, hafter, huse, hmiddle]

theorem placed_inj (hfolder : d.folder n = e.folder m) (hstem : d.stem n = e.stem m) : d = e ∧ n = m := by
  have htests : n ++ ".usecase.test" ≠ n ++ ".controller.test" := by
    rw [Ne, String.append_right_inj]
    decide
  cases d <;> cases e <;> simp_all [folder, stem]

theorem head?_folder (d : FeatureDocument) (n : String) : (d.folder n).head? ∈ [some "Features", some "__tests__"] := by
  cases d <;> simp [folder]

/-- What a document exports depends on the feature's name only. -/
theorem exported_sheet {f g : Feature} (h : f.name = g.name) (d : FeatureDocument) (s : Settings) :
    (d.module (f.sheet s)).exported = (d.module (g.sheet s)).exported := by
  cases d <;>
    simp [module, FeatureModule.container, FeatureModule.entity, FeatureModule.repositoryInterface,
      FeatureModule.useCase, FeatureModule.model, FeatureModule.dataSource, FeatureModule.repository,
      FeatureModule.middleware, FeatureModule.controller, FeatureModule.useCaseTest, FeatureModule.controllerTest,
      Module.exported, Statement.exported, Declaration.block, Feature.sheet, FeatureSheet.ofMappings, h]

theorem reaches (d : FeatureDocument) (s : FeatureSheet) : ∀ i ∈ (d.module s).imports,
    i.source ∈ packages ∨ ∃ q ∈ core ++ all.map fun e => e.placed s, i.Reaches (d.placed s) q := by
  have hcore {q : Placed} (hq : q ∈ core) {i : Import} (hs : i.source = leading (d.placed s).folder q.parts)
      (hn : ∀ n ∈ i.names, n ∈ q.module.exported) :
      i.source ∈ packages ∨ ∃ q ∈ core ++ all.map fun e => e.placed s, i.Reaches (d.placed s) q :=
    .inr ⟨q, List.mem_append_left _ hq, hs, hn⟩
  have hown (e : FeatureDocument) {i : Import} (hs : i.source = leading (d.placed s).folder (e.placed s).parts)
      (hn : ∀ n ∈ i.names, n ∈ (e.module s).exported) :
      i.source ∈ packages ∨ ∃ q ∈ core ++ all.map fun e => e.placed s, i.Reaches (d.placed s) q :=
    .inr ⟨e.placed s, List.mem_append_right _ (List.mem_map_of_mem e.mem_all), hs, hn⟩
  have hresult : result ∈ core := by simp [core]
  have herror : customError ∈ core := by simp [core]
  cases d <;>
    simp only [module, Module.imports, FeatureModule.container, FeatureModule.entity, FeatureModule.repositoryInterface,
      FeatureModule.useCase, FeatureModule.model, FeatureModule.dataSource, FeatureModule.repository,
      FeatureModule.middleware, FeatureModule.controller, FeatureModule.useCaseTest, FeatureModule.controllerTest,
      List.filterMap_cons, List.filterMap_nil, List.forall_mem_cons, List.not_mem_nil, false_imp_iff, implies_true,
      and_true]
  case' container =>
    refine ⟨.inl ?_, .inl ?_, hown controller ?_ ?_, hown useCase ?_ ?_, hown repository ?_ ?_, hown dataSource ?_ ?_⟩
  case' repositoryInterface => refine ⟨hcore hresult ?_ ?_, hown entity ?_ ?_, hcore herror ?_ ?_⟩
  case' useCase =>
    refine ⟨.inl ?_, hown entity ?_ ?_, hown repositoryInterface ?_ ?_, hcore hresult ?_ ?_, hcore herror ?_ ?_⟩
  case' model => refine .inl ?_
  case' dataSource =>
    refine ⟨.inl ?_, hown entity ?_ ?_, hown model ?_ ?_, hcore hresult ?_ ?_, hcore herror ?_ ?_⟩
  case' repository =>
    refine ⟨.inl ?_, hown entity ?_ ?_, hown repositoryInterface ?_ ?_, hown dataSource ?_ ?_, hcore hresult ?_ ?_,
      hcore herror ?_ ?_⟩
  case' middleware => refine ⟨.inl ?_, .inl ?_⟩
  case' controller => refine ⟨.inl ?_, .inl ?_, hown useCase ?_ ?_, hown middleware ?_ ?_⟩
  case' useCaseTest =>
    refine ⟨.inl ?_, hown useCase ?_ ?_, hown repositoryInterface ?_ ?_, hcore hresult ?_ ?_, hcore herror ?_ ?_,
      hown entity ?_ ?_⟩
  case' controllerTest =>
    refine ⟨.inl ?_, .inl ?_, .inl ?_, .inl ?_, hown controller ?_ ?_, hown useCase ?_ ?_, hcore hresult ?_ ?_,
      hown entity ?_ ?_⟩
  -- Of each import now remain its package, or its source and its names.
  all_goals first
    | decide
    | exact String.toList_inj.1 (by simp [Import.named, leading, apart, Placed.parts, placed, folder, stem, result,
        customError, toString, String.intercalate_cons_cons, FeatureModule.resultSource, FeatureModule.errorSource])
    | simp [Import.named, module, Module.exported, Statement.exported, Declaration.block, toString,
        FeatureModule.entity, FeatureModule.repositoryInterface, FeatureModule.useCase, FeatureModule.model,
        FeatureModule.dataSource, FeatureModule.repository, FeatureModule.middleware, FeatureModule.controller]

end FeatureDocument

end ApiScaffold
