import ApiScaffold.Text.Character
import Mathlib.Data.List.Basic
import Mathlib.Data.List.TakeWhile

namespace ApiScaffold.Text

structure IsTrimmed (cs : List Char) : Prop where
  head : ∀ c ∈ cs.head?, isBlank c = false
  last : ∀ c ∈ cs.getLast?, isBlank c = false

instance (cs : List Char) : Decidable (IsTrimmed cs) :=
  haveI : Decidable (∀ c ∈ cs.head?, isBlank c = false) := Option.decidableForallMem _
  haveI : Decidable (∀ c ∈ cs.getLast?, isBlank c = false) := Option.decidableForallMem _
  decidable_of_iff ((∀ c ∈ cs.head?, isBlank c = false) ∧ ∀ c ∈ cs.getLast?, isBlank c = false)
    ⟨fun h => ⟨h.1, h.2⟩, fun h => ⟨h.head, h.last⟩⟩

variable {cs : List Char}

theorem isTrimmed_nil : IsTrimmed [] := by decide

theorem isTrimmed_of_forall (h : ∀ c ∈ cs, isBlank c = false) : IsTrimmed cs :=
  ⟨fun c hc => h c (List.mem_of_mem_head? hc), fun c hc => h c (List.mem_of_mem_getLast? hc)⟩

theorem head?_stripStart (cs : List Char) : ∀ c ∈ (stripStart cs).head?, isBlank c = false := by
  intro c hc
  have h := List.head?_dropWhile_not isBlank cs
  rw [Option.mem_def, stripStart] at hc
  rwa [hc] at h

theorem stripStart_of_head (h : ∀ c ∈ cs.head?, isBlank c = false) : stripStart cs = cs := by
  cases cs with
  | nil => rfl
  | cons c cs => rw [stripStart, List.dropWhile_cons_of_neg (by simp [h c rfl])]

theorem stripEnd_eq (cs : List Char) : stripEnd cs = (stripStart cs.reverse).reverse := rfl

theorem stripEnd_isPrefix (cs : List Char) : stripEnd cs <+: cs := by
  rw [stripEnd_eq, ← List.reverse_suffix, List.reverse_reverse]
  exact List.dropWhile_suffix isBlank

theorem isTrimmed_strip (cs : List Char) : IsTrimmed (strip cs) := by
  constructor
  · intro c hc
    obtain ⟨ds, hds⟩ := stripEnd_isPrefix (stripStart cs)
    refine head?_stripStart cs c ?_
    rw [← hds]
    exact List.mem_head?_append_of_mem_head? hc
  · intro c hc
    rw [strip, stripEnd_eq, List.getLast?_reverse] at hc
    exact head?_stripStart _ c hc

theorem IsTrimmed.strip_eq (h : IsTrimmed cs) : strip cs = cs := by
  have hlast : stripStart cs.reverse = cs.reverse :=
    stripStart_of_head fun c hc => h.last c (by rwa [List.head?_reverse] at hc)
  rw [strip, stripStart_of_head h.head, stripEnd_eq, hlast, List.reverse_reverse]

theorem IsTrimmed.around {as bs : List Char} (ha : IsTrimmed as) (hb : IsTrimmed bs) (hane : as ≠ []) (hbne : bs ≠ [])
    (cs : List Char) : IsTrimmed (as ++ cs ++ bs) := by
  constructor
  · rw [List.append_assoc, List.head?_append_of_ne_nil _ hane]
    exact ha.head
  · rw [List.getLast?_append_of_ne_nil _ hbne]
    exact hb.last

theorem stripStart_eq_nil_iff (cs : List Char) : stripStart cs = [] ↔ ∀ c ∈ cs, isBlank c = true :=
  List.dropWhile_eq_nil_iff

theorem strip_eq_nil_iff (cs : List Char) : strip cs = [] ↔ ∀ c ∈ cs, isBlank c = true := by
  rw [← stripStart_eq_nil_iff]
  constructor
  · intro h
    have hblank : ∀ c ∈ stripStart cs, isBlank c = true := by
      rw [strip, stripEnd_eq, List.reverse_eq_nil_iff, stripStart_eq_nil_iff] at h
      simpa using h
    by_contra hne
    obtain ⟨c, rest, hc⟩ := List.exists_cons_of_ne_nil hne
    have hhead := head?_stripStart cs c (by rw [hc]; rfl)
    rw [hblank c (by rw [hc]; simp)] at hhead
    cases hhead
  · intro h
    rw [strip, h]
    rfl

theorem mem_of_mem_strip {c : Char} (h : c ∈ strip cs) : c ∈ cs :=
  (List.dropWhile_suffix isBlank).subset ((stripEnd_isPrefix (stripStart cs)).subset h)

/-- Blanks around a trimmed text are all that trimming takes away. -/
theorem strip_between {as bs : List Char} (ha : ∀ c ∈ as, isBlank c = true) (hb : ∀ c ∈ bs, isBlank c = true)
    (hc : IsTrimmed cs) : strip (as ++ cs ++ bs) = cs := by
  cases cs with
  | nil =>
      refine (strip_eq_nil_iff _).2 fun c h => ?_
      rw [List.append_nil] at h
      exact (List.mem_append.1 h).elim (ha c) (hb c)
  | cons d ds =>
      have hd : isBlank d = false := hc.head d rfl
      have hstart : stripStart (as ++ (d :: ds) ++ bs) = d :: ds ++ bs := by
        rw [stripStart, List.append_assoc, List.dropWhile_append_of_pos ha, List.cons_append,
          List.dropWhile_cons_of_neg (by simp [hd])]
      have hself : stripEnd (d :: ds) = d :: ds := by
        have hstrip := hc.strip_eq
        rwa [strip, stripStart_of_head hc.head] at hstrip
      rw [strip, hstart, stripEnd, List.reverse_append,
        List.dropWhile_append_of_pos fun c h => hb c (List.mem_reverse.1 h)]
      exact hself

end ApiScaffold.Text
