import ApiScaffold.Review
import Mathlib.Logic.Basic

namespace ApiScaffold.Review

variable {r s : Review}

inductive Change
  | error (e : String)
  | warning (w : String)
  | merge (s : Review)

namespace Change

def apply (r : Review) : Change → Review
  | error e => r.addError e
  | warning w => r.addWarning w
  | merge s => r.merge s

def errors : Change → List String
  | error e => [e]
  | warning _ => []
  | merge s => s.errors

def warnings : Change → List String
  | error _ => []
  | warning w => [w]
  | merge s => s.warnings

theorem apply_eq (r : Review) (c : Change) :
    c.apply r = ⟨r.valid && c.errors.isEmpty, r.errors ++ c.errors, r.warnings ++ c.warnings⟩ := by
  cases c with
  | error e => simp [apply, errors, warnings, addError]
  | warning w => simp [apply, errors, warnings, addWarning]
  | merge s => exact merge_eq r s

end Change

def after (r : Review) (cs : List Change) : Review := cs.foldl Change.apply r

theorem after_eq (r : Review) (cs : List Change) : r.after cs =
    ⟨r.valid && (cs.flatMap Change.errors).isEmpty, r.errors ++ cs.flatMap Change.errors,
      r.warnings ++ cs.flatMap Change.warnings⟩ := by
  induction cs generalizing r with
  | nil => simp [after]
  | cons c cs ih =>
    have hstep : r.after (c :: cs) = (c.apply r).after cs := rfl
    have hnone : (c.errors ++ cs.flatMap Change.errors).isEmpty =
        (c.errors.isEmpty && (cs.flatMap Change.errors).isEmpty) := by
      cases c.errors <;> rfl
    rw [hstep, ih, Change.apply_eq, List.flatMap_cons, List.flatMap_cons, hnone]
    simp only [Bool.and_assoc, List.append_assoc]

/-- A review that has an error is not valid. The converse is not asked for. -/
def IsConsistent (r : Review) : Prop := r.errors ≠ [] → r.valid = false

theorem IsConsistent.of (v : Bool) (es ws : List String) : (of v es ws).IsConsistent := by
  intro h
  have hes : es.isEmpty = false := List.isEmpty_eq_false_iff.mpr h
  simp [Review.of, hes]

theorem IsConsistent.apply (h : r.IsConsistent) (c : Change) : (c.apply r).IsConsistent := by
  rw [Change.apply_eq]
  intro hne
  by_cases hr : r.errors = []
  · have hc : c.errors ≠ [] := by simpa [hr] using hne
    simp [hc]
  · simp [h hr]

theorem IsConsistent.after (h : r.IsConsistent) (cs : List Change) : (r.after cs).IsConsistent := by
  induction cs generalizing r with
  | nil => exact h
  | cons c cs ih => exact ih (h.apply c)

theorem valid_after (r : Review) (cs : List Change) (h : r.valid = false) : (r.after cs).valid = false := by
  rw [after_eq, h, Bool.false_and]

theorem require_fails_iff (r : Review) : (∃ e, r.require = .error e) ↔ r.valid = false := by
  cases hv : r.valid <;> simp [require, hv]

theorem valid_merge_iff (r s : Review) : (r.merge s).valid = true ↔ r.valid = true ∧ s.errors = [] := by
  simp [merge_eq]

/-- With a consistent review a merge is as valid as both were, except where a valid one meets one that is invalid
without an error. -/
theorem IsConsistent.valid_merge (hs : s.IsConsistent) (r : Review) :
    ((r.merge s).valid = true ↔ r.valid = true ∧ s.valid = true) ↔
      ¬(r.valid = true ∧ s.valid = false ∧ s.errors = []) := by
  rw [valid_merge_iff]
  by_cases he : s.errors = []
  · cases r.valid <;> cases s.valid <;> simp [he]
  · simp [he, hs he]

/-- A review keeps its errors and warnings and adds those of its changes in their order, is invalid with an error and
stays so once it is; and a merge fails where one of its parts does, but for a part that is invalid without an error. -/
theorem built_then_merged (v v' : Bool) (es ws es' ws' : List String) (cs cs' ds : List Change) :
    let r := (of v es ws).after cs
    let s := (of v' es' ws').after cs'
    (r.errors ≠ [] → r.valid = false) ∧
    (r.valid = false → (r.after ds).valid = false) ∧
    (r.errors = es ++ cs.flatMap Change.errors ∧ r.warnings = ws ++ cs.flatMap Change.warnings) ∧
    (r.merge s = r.after [.merge s] ∧
      ((r.merge s).valid = true ↔ r.valid = true ∧ s.errors = [])) ∧
    ((∃ e, (r.merge s).require = .error e) ↔ (∃ e, r.require = .error e) ∨ s.errors ≠ []) ∧
    (((r.merge s).valid = true ↔ r.valid = true ∧ s.valid = true) ↔
      ¬(r.valid = true ∧ s.valid = false ∧ s.errors = [])) ∧
    (((∃ e, (r.merge s).require = .error e) ↔ (∃ e, r.require = .error e) ∨ ∃ e, s.require = .error e) ↔
      ¬(r.valid = true ∧ s.valid = false ∧ s.errors = [])) := by
  intro r s
  have hr : r.IsConsistent := (IsConsistent.of v es ws).after cs
  have hs : s.IsConsistent := (IsConsistent.of v' es' ws').after cs'
  have hfails : (∃ e, (r.merge s).require = .error e) ↔ ¬((r.merge s).valid = true) := by
    rw [require_fails_iff, Bool.not_eq_true]
  refine ⟨hr, r.valid_after ds, ?_, ⟨rfl, valid_merge_iff r s⟩, ?_, ?_, ?_⟩
  · simp [r, after_eq, of]
  · rw [hfails, valid_merge_iff, require_fails_iff, not_and_or, Bool.not_eq_true]
  · exact hs.valid_merge r
  · rw [hfails, require_fails_iff, require_fails_iff, ← hs.valid_merge r]
    rw [← Bool.not_eq_true, ← Bool.not_eq_true, ← not_and_or, not_iff_not]

/-- Merged into a valid review, one that is invalid without an error is lost. -/
theorem invalid_part_forgotten :
    (of false [] []).require = .error (.reported (of false [] []).report) ∧
    ((of true [] []).merge (of false [] [])).valid = true ∧
    ((of true [] []).merge (of false [] [])).require = .ok () := by
  refine ⟨rfl, rfl, rfl⟩

end ApiScaffold.Review
