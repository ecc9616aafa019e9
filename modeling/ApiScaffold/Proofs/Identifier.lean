import ApiScaffold.Feature.Review
import ApiScaffold.Proofs.Feature.Spelling
import Mathlib.Data.List.TakeWhile

namespace ApiScaffold

namespace Identifier

open Feature

variable {n : String} {cs : List Char}

/-- An identifier that is free to be bound. -/
structure IsUsable (n : String) : Prop where
  isIdentifier : IsIdentifier n
  isFree : n ∉ reservedWords

instance (n : String) : Decidable (IsUsable n) :=
  decidable_of_iff (IsIdentifier n ∧ n ∉ reservedWords) ⟨fun h => ⟨h.1, h.2⟩, fun h => ⟨h.isIdentifier, h.isFree⟩⟩

theorem isIdentifier_iff :
    IsIdentifier n ↔ ∃ c cs, n.toList = c :: cs ∧ isStart c = true ∧ ∀ d ∈ cs, isPart d = true := by
  constructor
  · intro h
    obtain ⟨c, hc, hstart⟩ := h.start
    obtain ⟨cs, hn⟩ : ∃ cs, n.toList = c :: cs := List.head?_eq_some_iff.1 hc
    exact ⟨c, cs, hn, hstart, fun d hd => h.parts d (by rw [hn]; exact List.mem_cons_of_mem c hd)⟩
  · rintro ⟨c, cs, hn, hstart, hparts⟩
    refine ⟨⟨c, by rw [hn]; rfl, hstart⟩, ?_⟩
    rw [hn]
    exact List.forall_mem_cons.2 ⟨by rw [isPart, hstart, Bool.true_or], hparts⟩

theorem dropWhile_eq_break_iff :
    cs.dropWhile isPart = ['\n'] ↔ ∃ ps, (∀ d ∈ ps, isPart d = true) ∧ cs = ps ++ ['\n'] := by
  constructor
  · intro h
    refine ⟨cs.takeWhile isPart, fun d hd => List.mem_takeWhile_imp hd, ?_⟩
    rw [← h, List.takeWhile_append_dropWhile]
  · rintro ⟨ps, hps, rfl⟩
    rw [List.dropWhile_append_of_pos hps]
    rfl

theorem isSpelled_cons_iff {c : Char} : isSpelled (c :: cs) = true ↔
    isStart c = true ∧ ((∀ d ∈ cs, isPart d = true) ∨ ∃ ps, (∀ d ∈ ps, isPart d = true) ∧ cs = ps ++ ['\n']) := by
  have hsuffix (r : List Char) : r <:+ ['\n'] ↔ r = [] ∨ r = ['\n'] := by
    rw [List.suffix_cons_iff, List.suffix_nil]
    exact or_comm
  rw [isSpelled, Bool.and_eq_true, List.isSuffixOf_iff_suffix, hsuffix, List.dropWhile_eq_nil_iff,
    dropWhile_eq_break_iff]

theorem isSpelled_iff : isSpelled n.toList = true ↔ IsIdentifier n ∨ ∃ m, IsIdentifier m ∧ n = m ++ "\n" := by
  cases hn : n.toList with
  | nil =>
      obtain rfl := String.toList_eq_nil_iff.1 hn
      have hempty : ¬IsIdentifier "" := by decide
      have hbroken (m : String) : "" ≠ m ++ "\n" := fun h => by
        have hlist := congrArg String.toList h
        simp at hlist
      simp [isSpelled, hempty, hbroken]
  | cons c cs =>
      rw [isSpelled_cons_iff]
      constructor
      · rintro ⟨hstart, hcs | ⟨ps, hps, rfl⟩⟩
        · exact .inl (isIdentifier_iff.2 ⟨c, cs, hn, hstart, hcs⟩)
        · refine .inr ⟨.ofList (c :: ps), isIdentifier_iff.2 ⟨c, ps, String.toList_ofList, hstart, hps⟩, ?_⟩
          rw [← String.toList_inj, hn, String.toList_append, String.toList_ofList]
          rfl
      · rintro (h | ⟨m, hm, rfl⟩)
        · obtain ⟨d, ds, hd, hstart, hds⟩ := isIdentifier_iff.1 h
          cases hn.symm.trans hd
          exact ⟨hstart, .inl hds⟩
        · obtain ⟨d, ds, hd, hstart, hds⟩ := isIdentifier_iff.1 hm
          rw [String.toList_append, hd] at hn
          cases hn
          exact ⟨hstart, .inr ⟨ds, hds, rfl⟩⟩

/-- No reserved word has a line break in it, so behind a break none is noticed. -/
theorem isValid_iff : isValid n = true ↔ IsUsable n ∨ ∃ m, IsIdentifier m ∧ n = m ++ "\n" := by
  have hwords : ∀ w ∈ reservedWords, '\n' ∉ w.toList := by decide
  have hfree (m : String) : m ++ "\n" ∉ reservedWords := fun h =>
    hwords _ h (by rw [String.toList_append]; exact List.mem_append_right _ List.mem_cons_self)
  rw [isValid, Bool.and_eq_true, isSpelled_iff, Bool.not_eq_true', List.contains_eq_mem,
    decide_eq_false_iff_not]
  constructor
  · rintro ⟨h | h, hn⟩
    · exact .inl ⟨h, hn⟩
    · exact .inr h
  · rintro (h | ⟨m, hm, rfl⟩)
    · exact ⟨.inl h.isIdentifier, h.isFree⟩
    · exact ⟨.inr ⟨m, hm, rfl⟩, hfree m⟩

theorem exists_identifier_of_isValid (h : isValid n = true) :
    ∃ m e, IsIdentifier m ∧ (e = "" ∨ e = "\n") ∧ n = m ++ e := by
  rcases isValid_iff.1 h with h | ⟨m, hm, rfl⟩
  · exact ⟨n, "", h.isIdentifier, .inl rfl, String.append_empty.symm⟩
  · exact ⟨m, "\n", hm, .inr rfl, rfl⟩

theorem exists_start_of_isValid (h : isValid n = true) : ∃ c cs, n.toList = c :: cs ∧ isStart c = true := by
  obtain ⟨m, e, hm, -, rfl⟩ := exists_identifier_of_isValid h
  obtain ⟨c, cs, hlist, hstart, -⟩ := isIdentifier_iff.1 hm
  exact ⟨c, cs ++ e.toList, by rw [String.toList_append, hlist, List.cons_append], hstart⟩

end Identifier

namespace Feature

open Identifier

theorem reviewName_quiet_iff (n : String) :
    ((reviewName n).errors = [] ∧ (reviewName n).warnings = []) ↔ isValid n = true := by
  unfold reviewName
  split
  next h =>
    subst h
    decide
  next =>
    split
    next h => exact iff_of_true ⟨rfl, rfl⟩ h
    next h => exact iff_of_false (fun hquiet => List.cons_ne_nil _ _ hquiet.2) h

/-- A name raises neither an error nor a warning just when it can be bound, or is an identifier with a line break behind
it. -/
theorem unwarned_iff (n : String) : ((reviewName n).errors = [] ∧ (reviewName n).warnings = []) ↔
    IsUsable n ∨ ∃ m, IsIdentifier m ∧ n = m ++ "\n" := by
  rw [reviewName_quiet_iff]
  exact isValid_iff

/-- Neither a line break behind an identifier nor one behind a reserved word is warned of. -/
theorem broken_name_unwarned :
    reviewName "user\n" = .clean ∧ ¬IsUsable "user\n" ∧ reviewName "class\n" = .clean ∧ ¬IsUsable "class\n" := by
  decide

end Feature

end ApiScaffold
