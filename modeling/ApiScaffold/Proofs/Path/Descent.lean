import ApiScaffold.Proofs.Path
import ApiScaffold.Tree
import Mathlib.Data.List.Infix

namespace ApiScaffold.Path

def rise (p : String) : Int := if p = ".." then -1 else 1

def descent : List String → Int
  | [] => 0
  | p :: ps => rise p + descent ps

/-- No opening of the parts leads up by more than `n` folders. -/
def ClimbsWithin (n : Int) (ps : List String) : Prop := ∀ qs, qs <+: ps → 0 ≤ n + descent qs

/-- From every location the path leads to one below it. -/
def LeadsBelow (p : Path) : Prop :=
  p.absolute = false ∧ ∃ l, l ≠ [] ∧ ∀ root : Location, p.parts.foldl Tree.next root = root ++ l

variable {p : String} {ps qs : List String} {n m : Int} {l root : Location}

theorem rise_up : rise ".." = -1 := rfl

theorem rise_of_ne (h : p ≠ "..") : rise p = 1 := if_neg h

theorem descent_append (ps qs : List String) : descent (ps ++ qs) = descent ps + descent qs := by
  induction ps with
  | nil => rw [List.nil_append, descent, Int.zero_add]
  | cons p ps ih => rw [List.cons_append, descent, descent, ih, Int.add_assoc]

theorem neg_length_le_descent (ps : List String) : -(ps.length : Int) ≤ descent ps := by
  induction ps with
  | nil => exact Int.le_refl 0
  | cons p ps ih =>
      rw [descent, List.length_cons, rise]
      split <;> omega

theorem ClimbsWithin.nonneg (h : ClimbsWithin n ps) : 0 ≤ n := by
  have hle := h [] List.nil_prefix
  rwa [descent, Int.add_zero] at hle

theorem ClimbsWithin.le (h : ClimbsWithin n ps) : 0 ≤ n + descent ps := h ps List.prefix_rfl

theorem ClimbsWithin.mono (h : ClimbsWithin n ps) (hnm : n ≤ m) : ClimbsWithin m ps := by
  intro qs hqs
  have hle := h qs hqs
  omega

theorem climbsWithin_nil : ClimbsWithin n [] ↔ 0 ≤ n := by
  refine ⟨ClimbsWithin.nonneg, fun hn qs hqs => ?_⟩
  rwa [List.prefix_nil.1 hqs, descent, Int.add_zero]

theorem climbsWithin_cons : ClimbsWithin n (p :: ps) ↔ 0 ≤ n ∧ ClimbsWithin (n + rise p) ps := by
  constructor
  · refine fun h => ⟨h.nonneg, fun us hus => ?_⟩
    have hle := h (p :: us) (List.cons_prefix_cons.2 ⟨rfl, hus⟩)
    rwa [descent, ← Int.add_assoc] at hle
  · rintro ⟨hn, h⟩ us hus
    rcases List.prefix_cons_iff.1 hus with rfl | ⟨vs, rfl, hvs⟩
    · rwa [descent, Int.add_zero]
    · rw [descent, ← Int.add_assoc]
      exact h vs hvs

theorem climbsWithin_append :
    ClimbsWithin n (ps ++ qs) ↔ ClimbsWithin n ps ∧ ClimbsWithin (n + descent ps) qs := by
  induction ps generalizing n with
  | nil =>
      rw [List.nil_append, descent, Int.add_zero, climbsWithin_nil]
      exact ⟨fun h => ⟨h.nonneg, h⟩, And.right⟩
  | cons p ps ih =>
      rw [List.cons_append, climbsWithin_cons, climbsWithin_cons, ih, descent, Int.add_assoc, and_assoc]

theorem climbsWithin_of_noUp (hn : 0 ≤ n) (h : ".." ∉ ps) : ClimbsWithin n ps := by
  induction ps generalizing n with
  | nil => exact climbsWithin_nil.2 hn
  | cons p ps ih =>
      obtain ⟨hp, hps⟩ := not_or.1 (List.mem_cons.not.1 h)
      have hdown := rise_of_ne (Ne.symm hp)
      exact climbsWithin_cons.2 ⟨hn, ih (by omega) hps⟩

theorem next_append (h : 0 ≤ (l.length : Int) + rise p) :
    ∃ l' : Location, (l'.length : Int) = l.length + rise p ∧ ∀ root, Tree.next (root ++ l) p = root ++ l' := by
  by_cases hp : p = ".."
  · rw [hp, rise_up] at h ⊢
    have hne : l ≠ [] := List.length_pos_iff.1 (by omega)
    refine ⟨l.dropLast, by rw [List.length_dropLast]; omega, fun root => ?_⟩
    rw [Tree.next, if_pos rfl, List.dropLast_append_of_ne_nil hne]
  · rw [rise_of_ne hp]
    refine ⟨l ++ [p], by simp, fun root => ?_⟩
    rw [Tree.next, if_neg hp, List.append_assoc]

theorem foldl_next_append (h : ClimbsWithin l.length ps) :
    ∃ l' : Location, (l'.length : Int) = l.length + descent ps ∧
      ∀ root, ps.foldl Tree.next (root ++ l) = root ++ l' := by
  induction ps generalizing l with
  | nil => exact ⟨l, by rw [descent, Int.add_zero], fun root => rfl⟩
  | cons p ps ih =>
      obtain ⟨-, hps⟩ := climbsWithin_cons.1 h
      obtain ⟨l₁, hl₁, hnext⟩ := next_append hps.nonneg
      obtain ⟨l₂, hl₂, hfold⟩ := ih (hl₁ ▸ hps)
      exact ⟨l₂, by rw [hl₂, hl₁, descent, Int.add_assoc], fun root => by rw [List.foldl_cons, hnext, hfold]⟩

/-- The steps up that the top does not allow are the only ones that do not count. -/
theorem length_foldl_next (ps : List String) (l : Location) :
    (l.length : Int) + descent ps ≤ (ps.foldl Tree.next l).length ∧
      ((ps.foldl Tree.next l).length = (l.length : Int) + descent ps → ClimbsWithin l.length ps) := by
  induction ps generalizing l with
  | nil =>
      rw [descent, Int.add_zero, climbsWithin_nil]
      exact ⟨Int.le_refl _, fun _ => Int.natCast_nonneg _⟩
  | cons p ps ih =>
      obtain ⟨hle, heq⟩ := ih (Tree.next l p)
      rw [List.foldl_cons, descent, climbsWithin_cons]
      by_cases hstep : 0 ≤ (l.length : Int) + rise p
      · obtain ⟨l', hl', hnext⟩ := next_append hstep
        have hlength : ((Tree.next l p).length : Int) = l.length + rise p := by
          rw [← hl', ← List.nil_append l, hnext, List.nil_append]
        rw [hlength] at hle heq
        exact ⟨by omega, fun h => ⟨Int.natCast_nonneg _, heq (by omega)⟩⟩
      · exact ⟨by omega, fun h => by omega⟩

theorem leadsBelow_iff (p : Path) :
    p.LeadsBelow ↔ p.absolute = false ∧ ClimbsWithin 0 p.parts ∧ 0 < descent p.parts := by
  refine and_congr_right fun _ => ⟨?_, ?_⟩
  · rintro ⟨l, hne, hroot⟩
    -- From far below the top all steps count, and so the location has the length that they give it.
    let far : Location := List.replicate p.parts.length ""
    have hfar : ClimbsWithin far.length p.parts := by
      intro qs hqs
      have hlength := hqs.length_le
      have hdescent := neg_length_le_descent qs
      rw [List.length_replicate]
      omega
    obtain ⟨l', hl', hfold⟩ := foldl_next_append hfar
    have hlength : (l.length : Int) = descent p.parts := by
      have hsame : far ++ l = l' := by rw [← hroot far, ← List.nil_append far, hfold, List.nil_append]
      rw [← hsame, List.length_append] at hl'
      omega
    have htop := hroot []
    rw [List.nil_append] at htop
    have hclimbs := (length_foldl_next p.parts []).2 (by rw [htop, hlength]; exact (Int.zero_add _).symm)
    exact ⟨hclimbs, by rw [← hlength]; exact_mod_cast List.length_pos_iff.2 hne⟩
  · rintro ⟨hclimbs, hpos⟩
    obtain ⟨l, hlength, hfold⟩ := foldl_next_append (l := []) hclimbs
    rw [List.length_nil] at hlength
    refine ⟨l, List.length_pos_iff.1 (by omega), fun root => ?_⟩
    rw [← hfold, List.append_nil]

end ApiScaffold.Path
