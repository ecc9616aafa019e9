import ApiScaffold.Feature.Review
import ApiScaffold.Project.Documents
import ApiScaffold.Proofs.Feature.Lists
import ApiScaffold.Proofs.Feature.Warnings
import ApiScaffold.Proofs.Json
import ApiScaffold.Proofs.Registry.RoundTrip
import Mathlib.Data.List.Induction

namespace ApiScaffold

variable {s : Settings} {f : Feature} {fs : List Feature} {r : Registry}

namespace Feature

def Maps (f : Feature) : Prop := ∃ ms, Mapping.ofFields f.fields = .ok ms

def mappings (f : Feature) : List Mapping := (Mapping.ofFields f.fields).toOption.getD []

theorem Maps.ofFields_eq (h : f.Maps) : Mapping.ofFields f.fields = .ok f.mappings := by
  obtain ⟨ms, hms⟩ := h
  rw [mappings, hms]
  rfl

def sample (f : Feature) : String := Mapping.sampleJson f.mappings

def sheet (f : Feature) (s : Settings) : FeatureSheet :=
  .ofMappings f.name (Text.article f.name.toList ++ " " ++ f.name) f.mappings s

def own (f : Feature) (s : Settings) : List Document :=
  FeatureDocument.all.map (FeatureDocument.document (f.sheet s))

theorem documents_eq (h : f.Maps) (hn : IsName f.name) : f.documents s = .ok (f.own s) := by
  rw [documents, FeatureSheet.ofFeature, h.ofFields_eq]
  change ((withArticle f.name).bind fun phrase => _).map _ = _
  rw [hn.withArticle_eq]
  rfl

/-- The documents of a feature with any folder for its name. -/
def output (f : Feature) (s : Settings) : List Document :=
  FeatureDocument.all.map (FeatureDocument.document (.ofMappings f.name (Text.withArticle f.name) f.mappings s))

theorem documents_eq_ok {ds : List Document} :
    f.documents s = .ok ds ↔ f.Maps ∧ f.name ≠ "" ∧ ds = f.output s := by
  unfold documents FeatureSheet.ofFeature
  cases hms : Mapping.ofFields f.fields with
  | error e =>
      constructor
      · intro h
        cases h
      · rintro ⟨⟨ms, h⟩, -⟩
        rw [hms] at h
        cases h
  | ok ms =>
      have hmaps : f.Maps := ⟨ms, hms⟩
      have hmappings : f.mappings = ms := Except.ok.inj (hmaps.ofFields_eq.symm.trans hms)
      by_cases hname : f.name = ""
      · simp only [withArticle, hname, if_pos]
        constructor
        · intro h
          cases h
        · exact fun h => absurd rfl h.2.1
      · simp only [withArticle, hname, if_false]
        rw [output, hmappings]
        exact ⟨fun h => ⟨hmaps, hname, (Except.ok.inj h).symm⟩, fun h => congrArg Except.ok h.2.2.symm⟩

theorem paths_output (f : Feature) (s : Settings) :
    (f.output s).map (·.path) = FeatureDocument.all.map fun d => d.path f.name := by
  rw [output, List.map_map]
  rfl

theorem review_ok (h : f.Maps) (hn : f.name ≠ "") : ∃ r, f.review = .ok r ∧ r.require = .ok () := by
  have hrules : f.HasReadableRules := by
    intro g hg
    have hmem : Mapping.ofField g ∈ f.mappings.map .ok :=
      Mapping.ofFields_ok h.ofFields_eq ▸ List.mem_map_of_mem hg
    obtain ⟨m, -, hm⟩ := List.mem_map.1 hmem
    exact ⟨m.rule, (Mapping.ofField_ok hm.symm).1⟩
  refine ⟨_, by rw [review, reviewFields_eq hrules]; rfl, ?_⟩
  have hvalid : ((reviewName f.name).merge ⟨true, [], (degradations f).map Warning.message⟩).valid = true := by
    rw [Review.merge_eq, (valid_reviewName f.name).2 hn]
    rfl
  exact if_pos hvalid

end Feature

namespace Registry

/-- A registry that is loaded from what is written of it: it is printable, and nothing in it is changed by
reading a text file. -/
structure Lasting (r : Registry) : Prop extends r.Printable where
  projectReturn : '\r' ∉ r.project.toList
  sampleReturn : ∀ f ∈ r.features, '\r' ∉ f.2.toList

structure IsTitle (project : String) : Prop where
  ne_empty : project ≠ ""
  noBreak : '\n' ∉ project.toList
  noReturn : '\r' ∉ project.toList
  noBlankEnd : ∀ c ∈ project.toList.getLast?, Text.isBlank c = false

theorem Lasting.empty {project : String} (h : IsTitle project) : (empty project).Lasting where
  isName _ hn := by cases hn
  nodup := List.nodup_nil
  sampleLine _ hf := by cases hf
  project_ne := h.ne_empty
  projectLine := h.noBreak
  projectEnd := h.noBlankEnd
  projectReturn := h.noReturn
  sampleReturn _ hf := by cases hf

theorem Lasting.register (h : r.Lasting) {name sample : String} (hn : Feature.IsName name)
    (hs : Text.IsPhrase sample.toList) : (r.register name sample).Lasting := by
  have hmem : ∀ f ∈ (r.register name sample).features, f = (name, sample) ∨ f ∈ r.features :=
    fun f hf => Keyed.mem_put hf
  refine ⟨⟨fun n hm => ?_, ?_, fun f hf => ?_, h.project_ne, h.projectLine, h.projectEnd⟩, h.projectReturn,
    fun f hf => ?_⟩
  · rw [names_register] at hm
    split at hm
    · exact h.isName n hm
    · rcases List.mem_append.1 hm with hm | hm
      · exact h.isName n hm
      · exact List.mem_singleton.1 hm ▸ hn
  · rw [names_register]
    split
    · exact h.nodup
    next hnot => exact List.nodup_append.2 ⟨h.nodup, by simp, fun a ha b hb e =>
        hnot (List.mem_singleton.1 hb ▸ e ▸ ha)⟩
  · rcases hmem f hf with rfl | hf
    · exact hs.not_mem rfl (by decide)
    · exact h.sampleLine f hf
  · rcases hmem f hf with rfl | hf
    · exact hs.not_mem rfl (by decide)
    · exact h.sampleReturn f hf

def ofFeatures (project : String) (fs : List Feature) : Registry :=
  (empty project).registerAll (fs.map fun f => (f.name, f.sample))

theorem ofFeatures_concat (project : String) (fs : List Feature) (f : Feature) :
    ofFeatures project (fs ++ [f]) = (ofFeatures project fs).register f.name f.sample := by
  rw [ofFeatures, List.map_append, registerAll, List.foldl_append]
  rfl

theorem lasting_ofFeatures {project : String} (hp : IsTitle project)
    (hn : ∀ f ∈ fs, Feature.IsName f.name) : (ofFeatures project fs).Lasting := by
  induction fs using List.reverseRecOn with
  | nil => exact .empty hp
  | append_singleton fs f ih =>
      rw [ofFeatures_concat]
      exact (ih fun g hg => hn g (by simp [hg])).register (hn f (by simp)) (Data.json_isPhrase _)

end Registry

namespace Project

theorem exists_of_bind {α β : Type} {x : Except Failure α} {k : α → Except Failure β} {b : β} (h : x >>= k = .ok b) :
    ∃ a, x = .ok a ∧ k a = .ok b := by
  cases x with
  | error e => cases h
  | ok a => exact ⟨a, rfl, h⟩

theorem forall_of_mapM {α β : Type} {f : α → Except Failure β} {as : List α} {bs : List β} (h : as.mapM f = .ok bs) :
    ∀ a ∈ as, ∃ b, f a = .ok b := by
  induction as generalizing bs with
  | nil => exact fun a ha => by cases ha
  | cons a as ih =>
      rw [List.mapM_cons] at h
      obtain ⟨b, hb, h⟩ := exists_of_bind h
      obtain ⟨bs, hbs, -⟩ := exists_of_bind h
      exact List.forall_mem_cons.2 ⟨⟨b, hb⟩, ih hbs⟩

theorem mapM_eq_ok_iff {α β : Type} {f : α → Except Failure β} {as : List α} {bs : List β} :
    as.mapM f = .ok bs ↔ List.Forall₂ (fun a b => f a = .ok b) as bs := by
  induction as generalizing bs with
  | nil =>
      rw [List.forall₂_nil_left_iff]
      exact ⟨fun h => (Except.ok.inj h).symm, fun h => h ▸ rfl⟩
  | cons a as ih =>
      rw [List.mapM_cons]
      constructor
      · intro h
        obtain ⟨b, hb, h⟩ := exists_of_bind h
        obtain ⟨cs, hcs, h⟩ := exists_of_bind h
        cases h
        exact .cons hb (ih.1 hcs)
      · intro h
        cases h with
        | cons hb h =>
            rw [hb, ih.2 h]
            rfl

theorem forall_of_documents {name : String} {ds : List Document} (h : documents name fs s = .ok ds) :
    ∀ f ∈ fs, f.Maps ∧ f.name ≠ "" := by
  obtain ⟨r, -, h⟩ := exists_of_bind h
  obtain ⟨readme, -, h⟩ := exists_of_bind h
  obtain ⟨own, hown, -⟩ := exists_of_bind h
  intro f hf
  obtain ⟨docs, hdocs⟩ := forall_of_mapM hown f hf
  have hinv := Feature.documents_eq_ok.1 hdocs
  exact ⟨hinv.1, hinv.2.1⟩

theorem registryOf_eq (name : String) (h : ∀ f ∈ fs, f.Maps) :
    registryOf name fs = .ok (Registry.ofFeatures name fs) := by
  rw [registryOf, mapM_ok (g := fun f => (f.name, f.sample)) fun f hf => by rw [(h f hf).ofFields_eq]; rfl]
  rfl

def common (name : String) (r : Registry) (s : Settings) : List Document :=
  sharedDocuments name s ++ [EntryPoint.render r s, Readme.document r s]

theorem documents_named {name : String} (h : ∀ f ∈ fs, f.Maps) (hn : ∀ f ∈ fs, Feature.IsName f.name)
    (hnames : ∀ n ∈ (Registry.ofFeatures name fs).names, Feature.IsName n) :
    documents name fs s = .ok (common name (.ofFeatures name fs) s ++ fs.flatMap fun f => f.own s) := by
  have hown : fs.mapM (fun f : Feature => f.documents s) = .ok (fs.map fun f => f.own s) :=
    mapM_ok fun f hf => Feature.documents_eq (h f hf) (hn f hf)
  rw [documents, registryOf_eq name h]
  change (Readme.render _ s).bind _ = _
  rw [Readme.render_eq hnames]
  change (fs.mapM fun f : Feature => f.documents s).bind _ = _
  rw [hown, List.flatMap]
  rfl

theorem documents_eq {name : String} (hp : Registry.IsTitle name) (h : ∀ f ∈ fs, f.Maps)
    (hn : ∀ f ∈ fs, Feature.IsName f.name) :
    documents name fs s = .ok (common name (.ofFeatures name fs) s ++ fs.flatMap fun f => f.own s) :=
  documents_named h hn (Registry.lasting_ofFeatures hp hn).isName

end Project

end ApiScaffold
