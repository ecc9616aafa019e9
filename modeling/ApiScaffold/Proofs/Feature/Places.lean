import ApiScaffold.Feature.Documents
import ApiScaffold.Proofs.Feature.Name
import ApiScaffold.Proofs.Path

namespace ApiScaffold

structure Path.IsEntry (s : String) : Prop extends Path.IsPart s where
  ne_up : s ≠ ".."

namespace Feature

def Plain (x : String) : Prop := 2 < x.length ∧ ∀ c ∈ x.toList, c ≠ '/' ∧ c ≠ '\x00'

instance (x : String) : Decidable (Plain x) :=
  haveI := List.decidableBAll (fun c => c ≠ '/' ∧ c ≠ '\x00') x.toList
  instDecidableAnd

/-- The part is the name, or what stands around the name makes a part. -/
def Around (n x : String) : Prop :=
  x = n ∨ 2 < x.length ∧ ∀ c ∈ x.toList, c ∈ n.toList ∨ c ≠ '/' ∧ c ≠ '\x00'

variable {n x a b : String}

theorem Around.isEntry (hn : Path.IsEntry n) (h : Around n x) : Path.IsEntry x := by
  rcases h with rfl | ⟨hlen, hc⟩
  · exact hn
  · have hne (s : String) (hs : s.length ≤ 2) : x ≠ s := fun e => by rw [e] at hlen; omega
    refine ⟨⟨hne "" (by decide), hne "." (by decide), fun hm => ?_⟩, hne ".." (by decide)⟩
    rcases hc '/' hm with hm | hm
    · exact hn.noSlash hm
    · exact hm.1 rfl

theorem Around.noNull (hn : '\x00' ∉ n.toList) (h : Around n x) : '\x00' ∉ x.toList := by
  rcases h with rfl | ⟨-, hc⟩
  · exact hn
  · intro hm
    rcases hc _ hm with hm | hm
    · exact hn hm
    · exact hm.2 rfl

theorem Around.refl (n : String) : Around n n := .inl rfl

theorem Plain.around (h : Plain x) : Around n x := .inr ⟨h.1, fun c hc => .inr (h.2 c hc)⟩

theorem Plain.after (h : Plain b) : Around n (n ++ b) := by
  have hlen := h.1
  refine .inr ⟨by rw [String.length_append]; omega, fun c hc => ?_⟩
  rw [String.toList_append, List.mem_append] at hc
  exact hc.imp_right (h.2 c)

theorem Plain.between (ha : Plain a) (hb : Plain b) : Around n (a ++ n ++ b) := by
  have hlen := hb.1
  refine .inr ⟨by rw [String.length_append]; omega, fun c hc => ?_⟩
  rw [String.toList_append, String.toList_append, List.mem_append, List.mem_append] at hc
  rcases hc with (hc | hc) | hc
  · exact .inr (ha.2 c hc)
  · exact .inl hc
  · exact .inr (hb.2 c hc)

end Feature

open Feature

def FeatureDocument.place (d : FeatureDocument) (n : String) : List String :=
  match d with
  | container => ["Features", n, "container.ts"]
  | entity => ["Features", n, "domain", "entity", n ++ ".entity.ts"]
  | repositoryInterface => ["Features", n, "domain", "repositories", n ++ ".repository.interface.ts"]
  | useCase => ["Features", n, "domain", "usecases", "create-" ++ n ++ ".usecase.ts"]
  | model => ["Features", n, "data", "models", n ++ ".model.ts"]
  | dataSource => ["Features", n, "data", "datasources", n ++ ".datasource.ts"]
  | repository => ["Features", n, "data", "repositories", n ++ ".repository.ts"]
  | middleware => ["Features", n, "delivery", "middlewares", "validate-" ++ n ++ ".middleware.ts"]
  | controller => ["Features", n, "delivery", "controllers", n ++ ".controller.ts"]
  | useCaseTest => ["__tests__", "Features", n, n ++ ".usecase.test.ts"]
  | controllerTest => ["__tests__", "Features", n, n ++ ".controller.test.ts"]

theorem FeatureDocument.path_eq (d : FeatureDocument) (n : String) :
    d.path n = "/".intercalate (d.place n) := by
  rw [← String.toList_inj]
  cases d with
  | container =>
      change ("Features/" ++ n ++ "/container.ts").toList = _
      simp [place, String.intercalate_cons_cons]
  | entity =>
      change ("Features/" ++ n ++ "/domain/entity/" ++ n ++ ".entity.ts").toList = _
      simp [place, String.intercalate_cons_cons]
  | repositoryInterface =>
      change ("Features/" ++ n ++ "/domain/repositories/" ++ n ++ ".repository.interface.ts").toList = _
      simp [place, String.intercalate_cons_cons]
  | useCase =>
      change ("Features/" ++ n ++ "/domain/usecases/create-" ++ n ++ ".usecase.ts").toList = _
      simp [place, String.intercalate_cons_cons]
  | model =>
      change ("Features/" ++ n ++ "/data/models/" ++ n ++ ".model.ts").toList = _
      simp [place, String.intercalate_cons_cons]
  | dataSource =>
      change ("Features/" ++ n ++ "/data/datasources/" ++ n ++ ".datasource.ts").toList = _
      simp [place, String.intercalate_cons_cons]
  | repository =>
      change ("Features/" ++ n ++ "/data/repositories/" ++ n ++ ".repository.ts").toList = _
      simp [place, String.intercalate_cons_cons]
  | middleware =>
      change ("Features/" ++ n ++ "/delivery/middlewares/validate-" ++ n ++ ".middleware.ts").toList = _
      simp [place, String.intercalate_cons_cons]
  | controller =>
      change ("Features/" ++ n ++ "/delivery/controllers/" ++ n ++ ".controller.ts").toList = _
      simp [place, String.intercalate_cons_cons]
  | useCaseTest =>
      change ("__tests__/Features/" ++ n ++ "/" ++ n ++ ".usecase.test.ts").toList = _
      simp [place, String.intercalate_cons_cons]
  | controllerTest =>
      change ("__tests__/Features/" ++ n ++ "/" ++ n ++ ".controller.test.ts").toList = _
      simp [place, String.intercalate_cons_cons]

theorem FeatureDocument.place_around (d : FeatureDocument) (n : String) : ∀ x ∈ d.place n, Around n x := by
  have hn : Around n n := .refl n
  have hfixed : ∀ x ∈ ["Features", "domain", "data", "delivery", "entity", "repositories", "usecases", "models",
      "datasources", "middlewares", "controllers", "__tests__", "container.ts"], Plain x := by decide
  have hafter : ∀ x ∈ [".entity.ts", ".repository.interface.ts", ".model.ts", ".datasource.ts", ".repository.ts",
      ".controller.ts", ".usecase.test.ts", ".controller.test.ts"], Plain x := by decide
  have huse : Around n ("create-" ++ n ++ ".usecase.ts") := Plain.between (by decide) (by decide)
  have hmiddle : Around n ("validate-" ++ n ++ ".middleware.ts") := Plain.between (by decide) (by decide)
  replace hfixed := fun x hx => (hfixed x hx).around (n := n)
  replace hafter := fun x hx => (hafter x hx).after (n := n)
  cases d <;> simp_all [place]

theorem FeatureDocument.ofText_path (hn : Path.IsEntry n) (d : FeatureDocument) :
    Path.ofText (d.path n) = ⟨false, d.place n⟩ := by
  rw [path_eq, Path.ofText_intercalate fun x hx => ((place_around d n x hx).isEntry hn).toIsPart]

namespace Feature

def ownPlaces : List (List String) := [
  ["domain", "entity"], ["domain", "usecases"], ["domain", "repositories"], ["data", "repositories"],
  ["data", "datasources"], ["data", "models"], ["delivery", "routes"], ["delivery", "controllers"],
  ["delivery", "middlewares"]]

def places (n : String) : List (List String) :=
  ownPlaces.map (fun p => "Features" :: n :: p) ++ [["__tests__", "Features", n]]

theorem directories_eq (n : String) : directories n = (places n).map fun p => "/".intercalate p := by
  have hown : ownFolders = ownPlaces.map fun p => "/".intercalate p := by decide
  have htest : testFolder n = "/".intercalate ["__tests__", "Features", n] := by
    rw [← String.toList_inj]
    change ("__tests__/Features/" ++ n).toList = _
    simp [String.intercalate_cons_cons]
  have hfolder (p : List String) (hp : p ≠ []) :
      folder n ++ "/" ++ "/".intercalate p = "/".intercalate ("Features" :: n :: p) := by
    rw [String.intercalate_cons_cons, String.intercalate_cons_of_ne_nil hp, ← String.toList_inj]
    change ("Features/" ++ n ++ "/" ++ "/".intercalate p).toList = _
    simp
  have hne : ∀ p ∈ ownPlaces, p ≠ [] := by decide
  rw [directories, hown, places, List.map_append, List.map_map, List.map_map, htest]
  congr 1
  exact List.map_congr_left fun p hp => hfolder p (hne p hp)

theorem places_around (n : String) : ∀ p ∈ places n, ∀ x ∈ p, Around n x := by
  have hown : ∀ p ∈ ownPlaces, ∀ x ∈ p, Plain x := by decide
  intro p hp x hx
  rcases List.mem_append.1 hp with hp | hp
  · obtain ⟨q, hq, rfl⟩ := List.mem_map.1 hp
    rcases List.mem_cons.1 hx with rfl | hx
    · exact Plain.around (by decide)
    · rcases List.mem_cons.1 hx with rfl | hx
      · exact .refl _
      · exact (hown q hq x hx).around
  · rw [List.mem_singleton.1 hp] at hx
    simp only [List.mem_cons, List.not_mem_nil, or_false] at hx
    rcases hx with rfl | rfl | rfl
    · exact Plain.around (by decide)
    · exact Plain.around (by decide)
    · exact .refl _

end Feature

end ApiScaffold
