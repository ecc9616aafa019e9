import ApiScaffold.Proofs.Text.Breaks

namespace ApiScaffold.Text

variable {sep : Char} {as bs cs l : List Char} {ls ms : List (List Char)} {i : Nat}

/-- A piece of the text that begins at the place `i`. It has no separator, and on either side there is one or nothing
is left of the text. -/
structure IsSegment (sep : Char) (cs : List Char) (i : Nat) (l : List Char) : Prop where
  ne_nil : l ≠ []
  noSep : sep ∉ l
  between : ∃ before after, cs = before ++ (l ++ after) ∧ before.length = i ∧ (∀ c ∈ before.getLast?, c = sep) ∧
    ∀ c ∈ after.head?, c = sep

/-- All segments of the text, from left to right. -/
def AreSegments (sep : Char) (cs : List Char) (ls : List (List Char)) : Prop :=
  ∃ places : List (Nat × List Char), places.map Prod.snd = ls ∧ places.Pairwise (fun p q => p.1 < q.1) ∧
    ∀ i l, (i, l) ∈ places ↔ IsSegment sep cs i l

theorem isSegment_whole (h : sep ∉ cs) : IsSegment sep cs i l ↔ i = 0 ∧ l = cs ∧ cs ≠ [] := by
  constructor
  · rintro ⟨hne, -, before, after, rfl, rfl, hbefore, hafter⟩
    have hnobefore : before = [] := by
      cases hlast : before.getLast? with
      | none => exact List.getLast?_eq_none_iff.1 hlast
      | some c =>
          have hmem : sep ∈ before := hbefore c hlast ▸ List.mem_of_getLast? hlast
          exact absurd (List.mem_append_left _ hmem) h
    have hnoafter : after = [] := by
      cases after with
      | nil => rfl
      | cons c after =>
          obtain rfl := hafter c rfl
          exact absurd (by simp) h
    subst hnobefore hnoafter
    rw [List.append_nil]
    exact ⟨rfl, rfl, hne⟩
  · rintro ⟨rfl, rfl, hne⟩
    exact ⟨hne, h, [], [], by simp, rfl, nofun, nofun⟩

theorem isSegment_append (has : sep ∉ as) : IsSegment sep (as ++ sep :: bs) i l ↔
    (i = 0 ∧ l = as ∧ as ≠ []) ∨ ∃ j, i = as.length + 1 + j ∧ IsSegment sep bs j l := by
  constructor
  · rintro ⟨hne, hl, before, after, heq, rfl, hbefore, hafter⟩
    rcases List.eq_nil_or_concat before with rfl | ⟨before, c, rfl⟩
    · rw [List.nil_append] at heq
      obtain ⟨es, hes, hopen⟩ := append_eq_break_right heq.symm hl
      cases es with
      | nil =>
          rw [List.append_nil] at hopen
          exact .inl ⟨rfl, hopen.symm, hopen ▸ hne⟩
      | cons e es =>
          obtain rfl := hafter e (hes ▸ rfl)
          exact absurd (hopen ▸ by simp) has
    · obtain rfl := hbefore c (by simp)
      rw [List.concat_append] at heq
      obtain ⟨es, hes, rfl⟩ := append_eq_break_right heq has
      cases es with
      | nil =>
          obtain ⟨-, rfl⟩ := List.cons.inj hes
          exact .inr ⟨0, by simp, hne, hl, [], after, rfl, rfl, nofun, hafter⟩
      | cons e es =>
          obtain ⟨rfl, rfl⟩ := List.cons.inj hes
          refine .inr ⟨es.length + 1, by simp; omega, hne, hl, es ++ [c], after, by simp, by simp, ?_, hafter⟩
          simp
  · rintro (⟨rfl, rfl, hne⟩ | ⟨j, rfl, hne, hl, before, after, rfl, rfl, hbefore, hafter⟩)
    · exact ⟨hne, has, [], sep :: bs, rfl, rfl, nofun, fun c hc => (Option.some.inj hc).symm⟩
    · refine ⟨hne, hl, as ++ sep :: before, after, by simp, by simp; omega, fun c hc => ?_, hafter⟩
      cases before with
      | nil => simpa using hc.symm
      | cons b before => exact hbefore c (by simpa [List.getLast?_append] using hc)

theorem areSegments_splitOn (sep : Char) (cs : List Char) :
    AreSegments sep cs ((cs.splitOn sep).filter fun l => !l.isEmpty) := by
  have hfirst (as : List Char) : ∀ i l, (i, l) ∈ (if as = [] then [] else [(0, as)]) ↔ i = 0 ∧ l = as ∧ as ≠ [] := by
    intro i l
    split_ifs with hnil <;> simp [hnil]
  induction cs using line_induction (x := sep) with
  | last cs hsep =>
      refine ⟨if cs = [] then [] else [(0, cs)], ?_, ?_, fun i l => ?_⟩
      · rw [List.splitOn_eq_singleton hsep]
        split_ifs with hnil <;> simp [hnil]
      · split_ifs <;> simp
      · rw [hfirst, isSegment_whole hsep]
  | line as bs has ih =>
      obtain ⟨places, hls, hsorted, hmem⟩ := ih
      refine ⟨(if as = [] then [] else [(0, as)]) ++ places.map fun p => (as.length + 1 + p.1, p.2), ?_, ?_,
        fun i l => ?_⟩
      · have hshift : (places.map fun p => (as.length + 1 + p.1, p.2)).map Prod.snd = places.map Prod.snd := by
          rw [List.map_map]
          rfl
        rw [List.splitOn_append_cons_self_of_not_mem has, List.map_append, List.filter_cons, hshift, hls]
        split_ifs with hnil <;> simp [hnil] at *
      · have hshifted : (places.map fun p => (as.length + 1 + p.1, p.2)).Pairwise fun p q => p.1 < q.1 :=
          List.pairwise_map.2 (hsorted.imp fun h => Nat.add_lt_add_left h _)
        refine List.pairwise_append.2 ⟨by split_ifs <;> simp, hshifted, fun p hp q hq => ?_⟩
        obtain ⟨r, -, rfl⟩ := List.mem_map.1 hq
        obtain ⟨hzero, -⟩ := (hfirst as p.1 p.2).1 hp
        dsimp only
        omega
      · rw [List.mem_append, hfirst, isSegment_append has]
        refine or_congr_right ?_
        simp only [List.mem_map, Prod.exists, Prod.mk.injEq, hmem]
        constructor
        · rintro ⟨j, m, hm, rfl, rfl⟩
          exact ⟨j, rfl, hm⟩
        · rintro ⟨j, rfl, hm⟩
          exact ⟨j, l, hm, rfl, rfl⟩

/-- A text has one list of segments. -/
theorem AreSegments.unique (h : AreSegments sep cs ls) (h' : AreSegments sep cs ms) : ls = ms := by
  obtain ⟨ps, rfl, hps, hmem⟩ := h
  obtain ⟨qs, rfl, hqs, hmem'⟩ := h'
  have hnodup {xs : List (Nat × List Char)} (hxs : xs.Pairwise fun p q => p.1 < q.1) : xs.Nodup :=
    hxs.imp fun hlt he => absurd (he ▸ hlt) (Nat.lt_irrefl _)
  have hperm : ps.Perm qs := (List.perm_ext_iff_of_nodup (hnodup hps) (hnodup hqs)).2 fun p => by
    rw [hmem p.1 p.2, hmem' p.1 p.2]
  rw [hperm.eq_of_pairwise (fun p q _ _ hlt hgt => absurd hlt (Nat.lt_asymm hgt)) hps hqs]

theorem eq_nil_iff_of_not_mem (h : sep ∉ cs) : cs = [] ↔ ∀ c ∈ cs, c = sep := by
  rw [List.eq_nil_iff_forall_not_mem]
  exact forall₂_congr fun c hc => iff_of_false id fun he => h (he ▸ hc)

theorem splitOn_eq_nil_iff : (∀ l ∈ cs.splitOn sep, l = []) ↔ ∀ c ∈ cs, c = sep := by
  induction cs using line_induction (x := sep) with
  | last cs hsep => rw [List.splitOn_eq_singleton hsep, List.forall_mem_singleton, eq_nil_iff_of_not_mem hsep]
  | line as bs has ih =>
      rw [List.splitOn_append_cons_self_of_not_mem has, List.forall_mem_cons, ih, eq_nil_iff_of_not_mem has,
        List.forall_mem_append, List.forall_mem_cons]
      simp

theorem AreSegments.eq_nil_iff (h : AreSegments sep cs ls) : ls = [] ↔ ∀ c ∈ cs, c = sep := by
  rw [h.unique (areSegments_splitOn sep cs), List.filter_eq_nil_iff, ← splitOn_eq_nil_iff]
  simp

end ApiScaffold.Text
