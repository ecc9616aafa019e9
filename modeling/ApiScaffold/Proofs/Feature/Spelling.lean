import ApiScaffold.Proofs.Feature.Places
import ApiScaffold.Proofs.Text.Capital

namespace ApiScaffold

namespace Feature

open Identifier

structure IsIdentifier (n : String) : Prop where
  start : ∃ c ∈ n.toList.head?, isStart c
  parts : ∀ c ∈ n.toList, isPart c

instance (n : String) : Decidable (IsIdentifier n) :=
  haveI : Decidable (∃ c ∈ n.toList.head?, isStart c) := Option.decidableExistsMem _
  haveI := List.decidableBAll (fun c => isPart c = true) n.toList
  decidable_of_iff ((∃ c ∈ n.toList.head?, isStart c) ∧ ∀ c ∈ n.toList, isPart c)
    ⟨fun h => ⟨h.1, h.2⟩, fun h => ⟨h.start, h.parts⟩⟩

variable {n : String} {c : Char}

theorem part_lt (h : isPart c) : c.toNat < 128 := by
  rw [isPart, Bool.or_eq_true] at h
  rcases h with h | h
  · exact Text.start_lt h
  · simp only [Char.isDigit, Bool.and_eq_true, decide_eq_true_eq, UInt32.le_iff_toNat_le] at h
    have hc : c.toNat ≤ 57 := h.2
    omega

theorem part_plain (h : isPart c) : Text.isBlank c = false ∧ c ≠ '/' ∧ c ≠ '\'' ∧ c ≠ '.' ∧ c ≠ '\x00' :=
  Text.forall_ascii
    (P := fun c => isPart c → Text.isBlank c = false ∧ c ≠ '/' ∧ c ≠ '\'' ∧ c ≠ '.' ∧ c ≠ '\x00')
    (by decide +kernel) (part_lt h) h

theorem IsIdentifier.not_mem (h : IsIdentifier n) (hc : isPart c = false) : c ∉ n.toList := by
  intro hm
  rw [h.parts c hm] at hc
  cases hc

theorem IsIdentifier.isName (h : IsIdentifier n) : IsName n := by
  obtain ⟨c, hc, -⟩ := h.start
  refine ⟨?_, fun d hd => (part_plain (h.parts d hd)).1, h.not_mem (by decide), h.not_mem (by decide)⟩
  rintro rfl
  cases hc

theorem IsIdentifier.isEntry (h : IsIdentifier n) : Path.IsEntry n := by
  have hdot : '.' ∉ n.toList := h.not_mem (by decide)
  refine ⟨⟨h.isName.ne_empty, ?_, h.isName.noSlash⟩, ?_⟩
  · rintro rfl
    exact hdot (by decide)
  · rintro rfl
    exact hdot (by decide)

end Feature

/-- Parts of a path that no system refuses: few, short and without nulls. -/
structure Path.IsShort (q : List String) : Prop where
  length_le : q.length ≤ 5
  size_le : ∀ x ∈ q, x.utf8ByteSize ≤ Path.partLimit
  noNull : ∀ x ∈ q, '\x00' ∉ x.toList

structure Path.IsFolderPlace (q : List String) : Prop extends IsShort q where
  noDot : ∀ x ∈ q, '.' ∉ x.toList

structure Path.IsFilePlace (q : List String) : Prop extends IsShort q where
  dot : ∃ x ∈ q.getLast?, '.' ∈ x.toList
  noDot : ∀ x ∈ q.dropLast, '.' ∉ x.toList

instance (q : List String) : Decidable (Path.IsShort q) :=
  decidable_of_iff (q.length ≤ 5 ∧ (∀ x ∈ q, x.utf8ByteSize ≤ Path.partLimit) ∧ ∀ x ∈ q, '\x00' ∉ x.toList)
    ⟨fun h => ⟨h.1, h.2.1, h.2.2⟩, fun h => ⟨h.length_le, h.size_le, h.noNull⟩⟩

instance (q : List String) : Decidable (Path.IsFolderPlace q) :=
  decidable_of_iff (Path.IsShort q ∧ ∀ x ∈ q, '.' ∉ x.toList)
    ⟨fun h => ⟨h.1, h.2⟩, fun h => ⟨h.toIsShort, h.noDot⟩⟩

instance (q : List String) : Decidable (Path.IsFilePlace q) :=
  haveI : Decidable (∃ x ∈ q.getLast?, '.' ∈ x.toList) := Option.decidableExistsMem _
  decidable_of_iff (Path.IsShort q ∧ (∃ x ∈ q.getLast?, '.' ∈ x.toList) ∧ ∀ x ∈ q.dropLast, '.' ∉ x.toList)
    ⟨fun h => ⟨h.1, h.2.1, h.2.2⟩, fun h => ⟨h.toIsShort, h.dot, h.noDot⟩⟩

theorem FeatureDocument.size_place (k : FeatureDocument) (n : String) :
    ∀ x ∈ k.place n, x.utf8ByteSize ≤ n.utf8ByteSize + 27 := by
  have hfixed : ∀ x ∈ ["Features", "domain", "data", "delivery", "entity", "repositories", "usecases", "models",
      "datasources", "middlewares", "controllers", "__tests__", "container.ts", ".entity.ts",
      ".repository.interface.ts", ".model.ts", ".datasource.ts", ".repository.ts", ".controller.ts",
      ".usecase.test.ts", ".controller.test.ts"], x.utf8ByteSize ≤ 27 := by decide +kernel
  have huse : "create-".utf8ByteSize + ".usecase.ts".utf8ByteSize ≤ 27 := by decide +kernel
  have hmiddle : "validate-".utf8ByteSize + ".middleware.ts".utf8ByteSize ≤ 27 := by decide +kernel
  simp only [List.forall_mem_cons] at hfixed
  cases k <;> simp only [place, List.forall_mem_cons, String.utf8ByteSize_append, List.not_mem_nil, false_imp_iff,
    implies_true, and_true] <;> omega

namespace Feature

variable {n : String}

/-- A name that makes parts of a path which are short enough. -/
structure IsShortIdentifier (n : String) : Prop extends IsIdentifier n where
  size_le : n.utf8ByteSize + 27 ≤ Path.partLimit

theorem IsShortIdentifier.isFilePlace (h : IsShortIdentifier n) (k : FeatureDocument) :
    Path.IsFilePlace (k.place n) := by
  have hdot : '.' ∉ n.toList := h.not_mem (by decide)
  refine ⟨⟨?_, fun x hx => Nat.le_trans (k.size_place n x hx) h.size_le,
    fun x hx => (k.place_around n x hx).noNull (h.not_mem (by decide))⟩, ?_, ?_⟩
  · cases k <;> exact Nat.le_of_ble_eq_true rfl
  · cases k <;> simp [FeatureDocument.place]
  · cases k <;> simp [FeatureDocument.place, hdot]

theorem mem_places {p : List String} (hp : p ∈ places n) :
    p.length ≤ 5 ∧ ∀ x ∈ p, x = n ∨ x ∈ "Features" :: "__tests__" :: ownPlaces.flatten := by
  have hlength : ∀ q ∈ ownPlaces, q.length = 2 := by decide
  rcases List.mem_append.1 hp with hp | hp
  · obtain ⟨q, hq, rfl⟩ := List.mem_map.1 hp
    refine ⟨by simp [hlength q hq], fun x hx => ?_⟩
    rcases List.mem_cons.1 hx with rfl | hx
    · exact .inr List.mem_cons_self
    · exact (List.mem_cons.1 hx).imp_right fun hx => by simp [List.mem_flatten_of_mem hq hx]
  · rw [List.mem_singleton.1 hp]
    refine ⟨Nat.le_of_ble_eq_true rfl, fun x hx => ?_⟩
    simp only [List.mem_cons, List.not_mem_nil, or_false] at hx ⊢
    tauto

theorem IsShortIdentifier.isFolderPlace (h : IsShortIdentifier n) : ∀ p ∈ places n, Path.IsFolderPlace p := by
  have hfixed : ∀ x ∈ "Features" :: "__tests__" :: ownPlaces.flatten,
      x.utf8ByteSize ≤ Path.partLimit ∧ '.' ∉ x.toList := by decide +kernel
  have hname : n.utf8ByteSize ≤ Path.partLimit ∧ '.' ∉ n.toList :=
    ⟨Nat.le_trans (Nat.le_add_right _ _) h.size_le, h.not_mem (by decide)⟩
  intro p hp
  have hparts : ∀ x ∈ p, x.utf8ByteSize ≤ Path.partLimit ∧ '.' ∉ x.toList := by
    intro x hx
    rcases (mem_places hp).2 x hx with rfl | hx
    · exact hname
    · exact hfixed x hx
  exact ⟨⟨(mem_places hp).1, fun x hx => (hparts x hx).1,
    fun x hx => (places_around n p hp x hx).noNull (h.not_mem (by decide))⟩, fun x hx => (hparts x hx).2⟩

end Feature

end ApiScaffold
