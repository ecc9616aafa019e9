import ApiScaffold.Project.Documents
import ApiScaffold.Proofs.Project.EntryPoint
import ApiScaffold.Proofs.Project.Readme

namespace ApiScaffold.Registry

open Text

theorem project_registerAll (r : Registry) (fs : List (String × String)) :
    (r.registerAll fs).project = r.project := by
  induction fs generalizing r with
  | nil => rfl
  | cons f fs ih => exact ih (r.register f.1 f.2)

theorem features_registerAll (r : Registry) (fs : List (String × String)) :
    (r.registerAll fs).features = fs.foldl (fun t f => Keyed.put f.1 f.2 t) r.features := by
  induction fs generalizing r with
  | nil => rfl
  | cons f fs ih => exact ih (r.register f.1 f.2)

theorem registerAll_empty (project : String) (fs : List (String × String)) :
    (empty project).registerAll fs = ⟨project, Keyed.ofPairs fs⟩ := by
  have hproject := project_registerAll (empty project) fs
  have hfeatures := features_registerAll (empty project) fs
  cases hr : (empty project).registerAll fs with
  | mk p ps =>
      rw [hr] at hproject hfeatures
      rw [show p = project from hproject, show ps = Keyed.ofPairs fs from hfeatures]

/-- What a registry must be like for its documents to tell it apart from the text around it. -/
structure Printable (r : Registry) : Prop where
  isName : ∀ n ∈ r.names, Feature.IsName n
  nodup : r.names.Nodup
  sampleLine : ∀ f ∈ r.features, '\n' ∉ f.2.toList
  project_ne : r.project ≠ ""
  projectLine : '\n' ∉ r.project.toList
  projectEnd : ∀ c ∈ r.project.toList.getLast?, isBlank c = false

instance (r : Registry) : Decidable r.Printable :=
  haveI : Decidable (∀ c ∈ r.project.toList.getLast?, isBlank c = false) := Option.decidableForallMem _
  decidable_of_iff ((∀ n ∈ r.names, Feature.IsName n) ∧ r.names.Nodup ∧
      (∀ f ∈ r.features, '\n' ∉ f.2.toList) ∧ r.project ≠ "" ∧ '\n' ∉ r.project.toList ∧
      ∀ c ∈ r.project.toList.getLast?, isBlank c = false)
    ⟨fun ⟨h₁, h₂, h₃, h₄, h₅, h₆⟩ => ⟨h₁, h₂, h₃, h₄, h₅, h₆⟩, fun h => ⟨h.isName, h.nodup, h.sampleLine,
      h.project_ne, h.projectLine, h.projectEnd⟩⟩

variable {r : Registry} {s : Settings}

theorem map_sampleOf (h : r.names.Nodup) : r.names.map (fun n => (n, sampleOf r.features n)) = r.features := by
  rw [names, Keyed.keys, List.map_map]
  conv_rhs => rw [← List.map_id r.features]
  refine List.map_congr_left fun f hf => ?_
  simp [sampleOf, Keyed.get?_of_mem h hf]

theorem Printable.load_eq (h : r.Printable) (hs : IsWord s.apiPrefix.toList) (fallback : String) :
    load (EntryPoint.render r s).content (some (Readme.document r s).content) fallback = r := by
  have htitle := Readme.title?_document (s := s) h.project_ne h.projectLine h.projectEnd
  have hsamples := Readme.samples_document h.isName h.nodup hs h.projectLine h.sampleLine
  rw [load, Option.getD_some, hsamples, htitle, EntryPoint.names_render h.isName h.nodup hs,
    map_sampleOf h.nodup, registerAll_empty, Keyed.ofPairs_of_nodup h.nodup, Option.getD_some]

/-- What is written of a registry loads as that registry, and no import is left over. -/
theorem load_render (h : r.Printable) (hs : IsWord s.apiPrefix.toList) (fallback : String) :
    ∃ readme, Readme.render r s = .ok readme ∧
      load (EntryPoint.render r s).content (some readme.content) fallback = r ∧
      EntryPoint.strays (EntryPoint.render r s).content = [] :=
  ⟨Readme.document r s, Readme.render_eq h.isName, h.load_eq hs fallback,
    EntryPoint.strays_render h.isName h.nodup hs⟩

/-- A payload that reads like another request changes nothing. -/
theorem load_render_shop :
    let r : Registry := ⟨"Corner Shop", [("user", "\x7b\"note\": \"it's\"\x7d"),
      ("a\x7db", "' curl -X POST http://localhost/user -d '\x7b\x7d'")]⟩
    ∃ readme, Readme.render r .standard = .ok readme ∧
      load (EntryPoint.render r .standard).content (some readme.content) "" = r ∧
      EntryPoint.strays (EntryPoint.render r .standard).content = [] :=
  load_render (by decide) (by decide) ""

end ApiScaffold.Registry
