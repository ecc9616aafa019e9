import ApiScaffold.Feature.Sheet
import ApiScaffold.Proofs.Text.Blank

namespace ApiScaffold

structure Feature.IsName (n : String) : Prop where
  ne_empty : n ≠ ""
  isWord : Text.IsWord n.toList
  noSlash : '/' ∉ n.toList
  noQuote : '\'' ∉ n.toList

instance (n : String) : Decidable (Feature.IsName n) :=
  decidable_of_iff (n ≠ "" ∧ Text.IsWord n.toList ∧ '/' ∉ n.toList ∧ '\'' ∉ n.toList)
    ⟨fun h => ⟨h.1, h.2.1, h.2.2.1, h.2.2.2⟩, fun h => ⟨h.ne_empty, h.isWord, h.noSlash, h.noQuote⟩⟩

/-- What an import can name as the folder of a feature. -/
structure Feature.IsFolder (n : String) : Prop where
  ne_empty : n ≠ ""
  noSlash : '/' ∉ n.toList
  noQuote : '\'' ∉ n.toList

theorem Feature.IsFolder.isName {n : String} (h : Feature.IsFolder n) (hw : Text.IsWord n.toList) :
    Feature.IsName n := ⟨h.ne_empty, hw, h.noSlash, h.noQuote⟩

namespace Text

theorem stripStart_word {cs : List Char} (h : IsWord cs) : stripStart cs = cs := by
  cases cs with
  | nil => rfl
  | cons c cs => simp [stripStart, h c (by simp)]

theorem stripEnd_word {cs : List Char} (h : IsWord cs) : stripEnd cs = cs := by
  have hr : cs.reverse.dropWhile isBlank = cs.reverse := stripStart_word fun c hc => h c (by simpa using hc)
  rw [stripEnd, hr, List.reverse_reverse]

theorem beforeBlanks_word {cs : List Char} (h : IsWord cs) : beforeBlanks cs = cs := by
  rw [beforeBlanks, stripEnd_word h]
  cases cs <;> rfl

theorem article_cases (w : List Char) : article w = "a" ∨ article w = "an" := by
  have hr : ∀ r ∈ articleRules, r.2 = "a" ∨ r.2 = "an" := by simp [articleRules]
  unfold article
  split
  next r hf => exact hr r (List.mem_of_find?_eq_some hf)
  next => exact .inl rfl

theorem leadingBlanks_word {cs : List Char} (h : IsWord cs) : (cs.takeWhile isBlank).length = 0 := by
  cases cs with
  | nil => rfl
  | cons c cs => simp [h c (by simp)]

theorem afterArticle_word {cs : List Char} (h : IsWord cs) : afterArticle cs = [] := by
  match cs with
  | [] => rfl
  | [c] => simp [afterArticle]
  | c :: d :: ds =>
      have hd : IsWord (d :: ds) := fun x hx => h x (List.mem_cons_of_mem _ hx)
      have hds : IsWord ds := fun x hx => hd x (List.mem_cons_of_mem _ hx)
      have hblank : ((if fold d = 'n' then ds else d :: ds).takeWhile isBlank).length = 0 := by
        split
        · exact leadingBlanks_word hds
        · exact leadingBlanks_word hd
      simp only [afterArticle, hblank]
      simp

theorem phrases_word {cs : List Char} (h : IsWord cs) : phrases cs = [([], cs)] := by
  simp [phrases, leadingBlanks_word h, afterArticle_word h]

theorem withArticle_word {s : String} (hs : s ≠ "") (h : IsWord s.toList) :
    withArticle s = article s.toList ++ " " ++ s := by
  have hne : s.toList ≠ [] := by simpa using hs
  have hword : wordWithin? s.toList = some (s.toList, []) := by
    simp [wordWithin?, beforeBlanks_word h, hs, h.not_mem (rfl : isBlank '\n' = true)]
  simp [withArticle, phrases_word h, hword]
  rw [← String.toList_inj]
  simp

theorem article_subset (w : List Char) : (article w).toList ⊆ ['a', 'n'] := by
  rcases article_cases w with h | h <;> rw [h] <;> decide

theorem afterArticle_subset {cs ds : List Char} (h : ds ∈ afterArticle cs) : ds ⊆ cs := by
  cases cs with
  | nil => cases h
  | cons c cs =>
      unfold afterArticle at h
      dsimp only at h
      split at h
      · obtain ⟨k, -, rfl⟩ := List.mem_map.1 h
        refine List.Subset.trans (List.drop_subset _ _) (List.Subset.trans ?_ (List.subset_cons_self c cs))
        cases cs with
        | nil => exact List.Subset.refl _
        | cons e es =>
            dsimp only
            split
            · exact List.subset_cons_self e es
            · exact List.Subset.refl _
      · cases h

theorem phrases_subset {cs : List Char} {p : List Char × List Char} (h : p ∈ phrases cs) :
    p.1 ⊆ cs ∧ p.2 ⊆ cs := by
  obtain ⟨k, -, hk⟩ := List.mem_flatMap.1 h
  obtain ⟨r, hr, rfl⟩ := List.mem_map.1 hk
  refine ⟨List.take_subset k cs, ?_⟩
  rcases List.mem_append.1 hr with hr | hr
  · exact List.Subset.trans (afterArticle_subset hr) (List.drop_subset k cs)
  · rw [List.mem_singleton.1 hr]
    exact List.drop_subset k cs

theorem beforeBlanks_subset (cs : List Char) : beforeBlanks cs ⊆ cs := by
  have hstrip : stripEnd cs ⊆ cs := by
    intro c hc
    exact List.mem_reverse.1 ((List.dropWhile_sublist _).subset (List.mem_reverse.1 hc))
  rw [beforeBlanks]
  split
  · exact List.take_subset 1 cs
  · exact hstrip

theorem wordWithin?_subset {cs : List Char} {p : List Char × List Char} (h : wordWithin? cs = some p) :
    p.1 ⊆ cs ∧ p.2 ⊆ cs := by
  unfold wordWithin? at h
  dsimp only at h
  split at h
  · cases h
  · rw [← Option.some.inj h]
    exact ⟨beforeBlanks_subset cs, List.drop_subset _ cs⟩

theorem withArticle_subset (s : String) : (withArticle s).toList ⊆ s.toList ++ ['a', 'n', ' '] := by
  unfold withArticle
  dsimp only
  split
  next lead w trail hfound =>
    obtain ⟨p, hp, hword⟩ := List.exists_of_findSome?_eq_some hfound
    obtain ⟨⟨w, trail⟩, hq, heq⟩ := Option.map_eq_some_iff.1 hword
    cases heq
    obtain ⟨hlead, hrest⟩ := phrases_subset hp
    obtain ⟨hw, htrail⟩ := wordWithin?_subset hq
    have hs : s.toList ⊆ s.toList ++ ['a', 'n', ' '] := List.subset_append_left _ _
    have hpart {cs : List Char} (h : cs ⊆ p.2) : cs ⊆ s.toList ++ ['a', 'n', ' '] :=
      List.Subset.trans h (List.Subset.trans hrest hs)
    have hletters : ['a', 'n'] ⊆ ['a', 'n', ' '] := List.subset_append_left ['a', 'n'] [' ']
    have ha := List.Subset.trans hletters (List.subset_append_right s.toList ['a', 'n', ' '])
    have hb : ' ' ∈ s.toList ++ ['a', 'n', ' '] := by simp
    rw [String.toList_ofList]
    simp only [List.append_subset, List.cons_subset]
    exact ⟨⟨⟨List.Subset.trans hlead hs, List.Subset.trans (article_subset w) ha⟩, hb, hpart hw⟩, hpart htrail⟩
  next => exact fun c hc => absurd hc List.not_mem_nil

end Text

theorem Feature.IsName.withArticle_eq {n : String} (h : Feature.IsName n) :
    withArticle n = .ok (Text.article n.toList ++ " " ++ n) := by
  rw [withArticle, if_neg h.ne_empty, Text.withArticle_word h.ne_empty h.isWord]

end ApiScaffold
