import ApiScaffold.Proofs.Generation.Addition
import ApiScaffold.Proofs.Json.OneLine

namespace ApiScaffold

namespace Json.Layout

theorem data_object (ms : List (String × Layout)) : (object ms).data = Json.object (ms.map fun m => (m.1, m.2.data)) := by
  rw [data, Json.object, List.map_map]
  congr 1
  induction ms with
  | nil => rfl
  | cons m ms ih => exact congrArg ((.str m.1, m.2.data) :: ·) ih

theorem Textual.isStandard {l : Layout} (h : l.Textual) : l.data.isStandard = true := by
  induction h with
  | text s => rfl
  | @object ms hms ih =>
      rw [data_object]
      exact object_isStandard (List.forall_mem_map.2 ih)

theorem Textual.readStrict_eq {l : Layout} (h : l.Textual) : readStrict (l.text "" ++ "\n") = some l.data :=
  readStrict_of_read h.read_eq h.isStandard

end Json.Layout

namespace Manifest

open Generation Json

variable {project : String}

theorem data_versions (packages : List (String × String)) :
    (Layout.object ((ProjectSheet.versions packages).map fun p => (p.1, .inline p.2))).data =
      object (ProjectSheet.versions packages) := by
  rw [Layout.data_object, List.map_map]
  exact congrArg object (List.map_id _)

/-- The manifest is one document of a project. By the standard it is an object with the project's name and the packages
in their order, and wherever it lies, the name of the project there is the one given. -/
theorem package_declares (hne : project ≠ "") (s : Settings) :
    let content := SharedDocument.package.content (.ofProject project s)
    (Project.sharedDocuments project s).filter (fun d => d.path = path) = [⟨path, content⟩] ∧
      (∃ members : List (String × Data), readStrict content = some (object members) ∧
        (members.map Prod.fst).Nodup ∧ ("name", .str project) ∈ members ∧
        ("dependencies", object (ProjectSheet.versions ProjectSheet.runtimePackages)) ∈ members ∧
        ("devDependencies", object (ProjectSheet.versions ProjectSheet.developmentPackages)) ∈ members) ∧
      ∀ (w : World) (root : Path), w.tree.look w.here (root / path) = .ok (some (.file (.text content))) →
        ((projectName root).run w).run = (.ok project, w) := by
  intro content
  have hread : readStrict content = some (SharedText.package (.ofProject project s)).data :=
    (SharedText.package_textual project s).readStrict_eq
  refine ⟨rfl, ⟨_, hread.trans (congrArg some (Layout.data_object _)), ?_, ?_, ?_, ?_⟩, fun w root hlook => ?_⟩
  · change ["name", "version", "description", "main", "scripts", "dependencies", "devDependencies"].Nodup
    decide
  · exact List.mem_cons_self
  · simp [← data_versions, ProjectSheet.ofProject]
  · simp [← data_versions, ProjectSheet.ofProject]
  · exact projectName_eq hlook (name_package hne s)

/-- A name with marks and line breaks in it, and a blank at its end. -/
theorem package_declares_marks :
    let project := "a \"b\"\\\r\n😀 "
    let content := SharedDocument.package.content (.ofProject project .standard)
    let w : World :=
      .fresh [(["home"], .directory), (["home", "package.json"], .file (.text content))] ["home"] .bare
    project ≠ "" ∧ w.tree.look w.here (Path.here / path) = .ok (some (.file (.text content))) ∧
      ((projectName Path.here).run w).run = (.ok project, w) := by
  intro project content w
  have hne : project ≠ "" := by decide
  have hlook : w.tree.look w.here (Path.here / path) = .ok (some (.file (.text content))) := rfl
  exact ⟨hne, hlook, (package_declares hne .standard).2.2 w Path.here hlook⟩

end Manifest

end ApiScaffold
