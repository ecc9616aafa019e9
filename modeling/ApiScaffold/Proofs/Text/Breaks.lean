import ApiScaffold.Proofs.Text.Blank
import ApiScaffold.Proofs.Text.Lines

namespace ApiScaffold.Text

variable {α : Type} {f : List Char → Option (α × List Char)} {x : Char} {as bs cs ds l r : List Char}

theorem span_eq {p : Char → Bool} (cs : List Char) :
    cs = (cs.span p).1 ++ (cs.span p).2 ∧ ∀ c ∈ (cs.span p).1, p c = true := by
  rw [List.span_eq_takeWhile_dropWhile]
  exact ⟨List.takeWhile_append_dropWhile.symm, List.all_eq_true.1 List.all_takeWhile⟩

/-- Induction on the lines of a text. -/
@[elab_as_elim]
theorem line_induction {motive : List Char → Prop} (last : ∀ l, x ∉ l → motive l)
    (line : ∀ l cs, x ∉ l → motive cs → motive (l ++ x :: cs)) (cs : List Char) : motive cs := by
  induction hlen : cs.length using Nat.strongRecOn generalizing cs with
  | _ k ih =>
      by_cases hx : x ∈ cs
      · obtain ⟨l, ds, rfl, hl⟩ := List.eq_append_cons_of_mem hx
        refine line l ds hl (ih ds.length ?_ ds rfl)
        rw [← hlen, List.length_append, List.length_cons]
        omega
      · exact last cs hx

theorem mem_scan {a : α} (h : a ∈ scan f cs) : ∃ ds r, f ds = some (a, r) := by
  fun_induction scan f cs with
  | case1 cs b r hf r' hr hlt ih =>
      rcases List.mem_cons.1 h with rfl | h
      · exact ⟨cs, r, hf⟩
      · exact ih h
  | case2 cs b r hf r' hr hlt =>
      obtain rfl := List.mem_singleton.1 h
      exact ⟨cs, r, hf⟩
  | case3 cs b r hf hr =>
      obtain rfl := List.mem_singleton.1 h
      exact ⟨cs, r, hf⟩
  | case4 cs hf r hr ih => exact ih h
  | case5 cs hf hr => cases h

theorem Reads.passText (hstart : ∀ r, f (l ++ '\n' :: r) = none)
    (hline : ∀ as bs, l = as ++ '\n' :: bs → ∀ r, f (bs ++ '\n' :: r) = none) : Reads f [l] [] := by
  suffices hscan : ∀ r, scan f (l ++ '\n' :: r) = scan f r by
    intro r
    simpa using hscan r
  intro r
  induction l using line_induction (x := '\n') with
  | last l hl => exact scan_of_none hl (hstart r)
  | line l m hl ih =>
      have hfirst := hstart r
      rw [List.append_assoc, List.cons_append] at hfirst ⊢
      rw [scan_of_none hl hfirst]
      exact ih (hline l m rfl) fun as bs h => hline (l ++ '\n' :: as) bs (by rw [h]; simp)

/-- Reading a text with a break is reading the lines at both sides of it. -/
theorem Reads.break_iff {found : List α} : Reads f [as ++ '\n' :: bs] found ↔ Reads f [as, bs] found := by
  have htext : unlines [as ++ '\n' :: bs] = unlines [as, bs] := by simp
  rw [Reads, Reads, htext]

theorem Reads.none {ls : List (List Char)} (h : ∀ l ∈ ls, Reads f [l] []) : Reads f ls [] := by
  induction ls with
  | nil => exact .nil
  | cons l ls ih => exact (h l List.mem_cons_self).append (ih fun m hm => h m (List.mem_cons_of_mem l hm))

theorem line_cases (h : l ∈ cs.splitOn x) :
    x ∉ l ∧ ((∃ bs, cs = l ++ bs) ∨ ∃ as bs, cs = as ++ x :: (l ++ bs)) := by
  induction cs using line_induction (x := x) with
  | last cs hx =>
      rw [List.splitOn_eq_singleton hx, List.mem_singleton] at h
      exact ⟨h ▸ hx, .inl ⟨[], by simp [h]⟩⟩
  | line as bs has ih =>
      rw [List.splitOn_append_cons_self_of_not_mem has] at h
      rcases List.mem_cons.1 h with rfl | h
      · exact ⟨has, .inl ⟨_, rfl⟩⟩
      · obtain ⟨hl, ⟨ds, rfl⟩ | ⟨cs, ds, rfl⟩⟩ := ih h
        · exact ⟨hl, .inr ⟨as, ds, rfl⟩⟩
        · exact ⟨hl, .inr ⟨as ++ x :: cs, ds, by simp⟩⟩

theorem append_eq_break (h : as ++ bs = cs ++ x :: ds) :
    (∃ es, as = cs ++ x :: es ∧ ds = es ++ bs) ∨ ∃ es, bs = es ++ x :: ds ∧ cs = as ++ es := by
  rcases List.append_eq_append_iff.1 h with ⟨es, hcs, hbs⟩ | ⟨es, has, hds⟩
  · exact .inr ⟨es, hbs, hcs⟩
  · cases es with
    | nil => exact .inr ⟨[], by simpa using hds.symm, by simpa using has.symm⟩
    | cons e es =>
        obtain ⟨rfl, rfl⟩ := List.cons.inj hds
        exact .inl ⟨es, has, rfl⟩

theorem append_eq_break_right (h : as ++ bs = cs ++ x :: ds) (hx : x ∉ as) :
    ∃ es, bs = es ++ x :: ds ∧ cs = as ++ es := by
  rcases append_eq_break h with ⟨es, rfl, -⟩ | h
  · exact absurd (by simp) hx
  · exact h

theorem append_cons_inj (h : as ++ x :: bs = cs ++ x :: ds) (ha : x ∉ as) (hc : x ∉ cs) :
    as = cs ∧ bs = ds := by
  rcases append_eq_break_right h ha with ⟨es, hes, rfl⟩
  cases es with
  | nil => exact ⟨by simp, (List.cons.inj hes).2⟩
  | cons e es =>
      obtain ⟨rfl, -⟩ := List.cons.inj hes
      exact absurd (by simp) hc

end ApiScaffold.Text
