import ApiScaffold.Proofs.Field.Specification

namespace ApiScaffold

namespace Field

variable {es ds : List (List Char)} {e : List Char} {s : String}

/-- The second list has the entries of the first, in their order, and any blank ones among them. -/
inductive IsPadded : List (List Char) → List (List Char) → Prop
  | nil : IsPadded [] []
  | entry {es ds : List (List Char)} (e : List Char) : IsPadded es ds → IsPadded (e :: es) (e :: ds)
  | blank {es ds : List (List Char)} {e : List Char} : isBlankEntry e = true → IsPadded es ds → IsPadded es (e :: ds)

def ofEntries (es : List (List Char)) : String := .ofList ([','].intercalate es)

theorem entries_append (a b : String) : entries (a ++ "," ++ b) = entries a ++ entries b := by
  have htext : (a ++ "," ++ b).toList = a.toList ++ ',' :: b.toList := by simp
  rw [entries, htext, List.splitOn_append_cons_self]
  rfl

theorem readSpec_append (a b : String) : readSpec (a ++ "," ++ b) = readSpec a ++ readSpec b := by
  rw [readSpec, entries_append, List.filter_append, List.map_append]
  rfl

theorem noComma_of_isBlankEntry (h : isBlankEntry e = true) : ',' ∉ e := by
  intro hcomma
  exact absurd (List.all_eq_true.1 h ',' hcomma) (by decide)

theorem entries_ofEntries (h : ∀ e ∈ es, ',' ∉ e) (hne : es ≠ []) : entries (ofEntries es) = es := by
  rw [entries, ofEntries, String.toList_ofList, List.splitOn_intercalate ',' h hne]

namespace IsPadded

theorem ne_nil (h : IsPadded es ds) (hne : es ≠ []) : ds ≠ [] := by
  cases h with
  | nil => exact hne
  | entry e _ => exact List.cons_ne_nil _ _
  | blank _ _ => exact List.cons_ne_nil _ _

theorem noComma (h : IsPadded es ds) (hcomma : ∀ e ∈ es, ',' ∉ e) : ∀ e ∈ ds, ',' ∉ e := by
  induction h with
  | nil => exact hcomma
  | entry e _ ih =>
      obtain ⟨he, hes⟩ := List.forall_mem_cons.1 hcomma
      exact List.forall_mem_cons.2 ⟨he, ih hes⟩
  | blank hblank _ ih => exact List.forall_mem_cons.2 ⟨noComma_of_isBlankEntry hblank, ih hcomma⟩

theorem filter_eq (h : IsPadded es ds) :
    (ds.filter fun e => !isBlankEntry e) = es.filter fun e => !isBlankEntry e := by
  induction h with
  | nil => rfl
  | entry e _ ih => rw [List.filter_cons, List.filter_cons, ih]
  | blank hblank _ ih => rw [List.filter_cons_of_neg (by simp [hblank]), ih]

end IsPadded

/-- A specification made of two declares the fields of the one and then those of the other. With blank entries put in
anywhere, it has just these entries and declares what it did without them. -/
theorem readSpec_composes : (∀ a b, readSpec (a ++ "," ++ b) = readSpec a ++ readSpec b) ∧
    ∀ s es, IsPadded (entries s) es → entries (ofEntries es) = es ∧ readSpec (ofEntries es) = readSpec s := by
  refine ⟨readSpec_append, fun s es hpadded => ?_⟩
  have hcomma : ∀ e ∈ es, ',' ∉ e := hpadded.noComma fun e he => Path.not_mem_of_mem_splitOn he
  have hne : es ≠ [] := hpadded.ne_nil (List.splitOn_ne_nil ',' s.toList)
  have hentries : entries (ofEntries es) = es := entries_ofEntries hcomma hne
  refine ⟨hentries, ?_⟩
  rw [readSpec, hentries, hpadded.filter_eq]
  rfl

theorem readSpec_composes_spaced :
    IsPadded (entries "id:number,name") [" ".toList, "id:number".toList, [], "name".toList, "\t".toList] ∧
      readSpec " ,id:number,,name,\t" = readSpec "id:number,name" := by
  have hpadded : IsPadded (entries "id:number,name")
      [" ".toList, "id:number".toList, [], "name".toList, "\t".toList] :=
    .blank rfl (.entry _ (.blank rfl (.entry _ (.blank rfl .nil))))
  exact ⟨hpadded, (readSpec_composes.2 _ _ hpadded).2⟩

end Field

end ApiScaffold
