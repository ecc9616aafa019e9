import ApiScaffold.Decimal.Number
import ApiScaffold.Proofs.Text.Blank
import ApiScaffold.Text.Character
import Mathlib.Algebra.Group.Nat.Defs
import Mathlib.Data.List.Induction

namespace ApiScaffold.Text

def numerals : List Char := "0123456789abcdefinty*+-.I".toList

theorem numerals_not_blank : ∀ c ∈ numerals, isBlank c = false :=
  fun c hc => Bool.eq_false_iff.2 (List.any_eq_false.1 (by decide) c hc)

theorem IsWord.of_numerals {cs : List Char} (h : cs ⊆ numerals) : IsWord cs := fun c hc => numerals_not_blank c (h hc)

theorem digitChar_numeral (n : Nat) : n.digitChar ∈ numerals := by
  have hsmall : ∀ m < 16, Nat.digitChar m ∈ numerals := by decide
  by_cases h : n < 16
  · exact hsmall n h
  · rw [Nat.digitChar_eq_star.2 (by omega)]
    decide

theorem toDigits_numerals {b : Nat} (hb : 1 < b) (n : Nat) : Nat.toDigits b n ⊆ numerals := by
  induction n using Nat.strongRecOn with
  | ind n ih =>
      have hone (m : Nat) : [m.digitChar] ⊆ numerals := List.cons_subset.2 ⟨digitChar_numeral m, List.nil_subset _⟩
      rw [Nat.toDigits_eq_if hb]
      split
      · exact hone n
      · exact List.append_subset.2 ⟨ih (n / b) (Nat.div_lt_self (by omega) hb), hone _⟩

theorem digitsOf_numerals (n : Nat) : digitsOf n ⊆ numerals := toDigits_numerals (by decide) n

theorem replicate_numerals (n : Nat) : List.replicate n '0' ⊆ numerals := by
  intro c hc
  rw [(List.mem_replicate.1 hc).2]
  decide

theorem hex_numerals (width n : Nat) : hex width n ⊆ numerals :=
  List.append_subset.2 ⟨replicate_numerals _, toDigits_numerals (by decide) n⟩

theorem intText_numerals (n : Int) : (Number.intText n).toList ⊆ numerals := by
  have hd := digitsOf_numerals n.natAbs
  rw [Number.intText, String.toList_ofList]
  split
  · exact List.cons_subset.2 ⟨by decide, hd⟩
  · exact hd

theorem intText_isWord (n : Int) : IsWord (Number.intText n).toList := .of_numerals (intText_numerals n)

variable {cs ds : List Char} {n : Nat}

def IsRow (cs : List Char) : Prop := ∀ c ∈ cs, c.isDigit = true

theorem IsRow.append (hc : IsRow cs) (hd : IsRow ds) : IsRow (cs ++ ds) := List.forall_mem_append.2 ⟨hc, hd⟩

theorem IsRow.replicate (n : Nat) : IsRow (List.replicate n '0') := by
  intro c hc
  rw [List.eq_of_mem_replicate hc]
  rfl

theorem digit?_of_isDigit {c : Char} (h : c.isDigit = true) : digit? c = some (c.toNat - '0'.toNat) := by
  have hrange : 48 ≤ c.toNat ∧ c.toNat < 58 := by
    rw [Char.isDigit, Bool.and_eq_true, decide_eq_true_eq, decide_eq_true_eq] at h
    exact ⟨h.1, Nat.lt_succ_of_le h.2⟩
  have hzeros : zeros = 48 :: zeros.tail := rfl
  rw [digit?, hzeros, List.find?_cons_of_pos (by simpa using hrange)]
  rfl

theorem IsRow.digitsValue_eq (h : IsRow cs) : digitsValue cs = Nat.ofDigitChars 10 cs 0 := by
  have hfold (n : Nat) : cs.foldl (fun n c => 10 * n + (digit? c).getD 0) n = Nat.ofDigitChars 10 cs n := by
    induction cs generalizing n with
    | nil => rfl
    | cons c cs ih =>
        obtain ⟨hc, hcs⟩ := List.forall_mem_cons.1 h
        rw [List.foldl_cons, Nat.ofDigitChars_cons, digit?_of_isDigit hc, ih hcs]
        rfl
  exact hfold 0

theorem IsRow.digitsValue_append (hc : IsRow cs) (hd : IsRow ds) :
    digitsValue (cs ++ ds) = digitsValue cs * 10 ^ ds.length + digitsValue ds := by
  rw [(hc.append hd).digitsValue_eq, hc.digitsValue_eq, hd.digitsValue_eq, Nat.ofDigitChars_append,
    Nat.ofDigitChars_eq_ofDigitChars_zero, Nat.mul_comm]

theorem digitsValue_replicate (n : Nat) : digitsValue (List.replicate n '0') = 0 := by
  rw [(IsRow.replicate n).digitsValue_eq, Nat.ofDigitChars_replicate_zero, Nat.mul_zero]

theorem digit?_lt {c : Char} {d : Nat} (h : digit? c = some d) : d < 10 := by
  obtain ⟨z, hz, rfl⟩ := Option.map_eq_some_iff.1 h
  have hrange := List.find?_some hz
  rw [Bool.and_eq_true, decide_eq_true_eq, decide_eq_true_eq] at hrange
  omega

theorem digitsValue_lt (cs : List Char) : digitsValue cs < 10 ^ cs.length := by
  induction cs using List.reverseRecOn with
  | nil => exact Nat.one_pos
  | append_singleton cs c ih =>
      have hlast : digitsValue (cs ++ [c]) = 10 * digitsValue cs + (digit? c).getD 0 := by
        rw [digitsValue, List.foldl_append]
        rfl
      have hdigit : (digit? c).getD 0 < 10 := by
        cases hc : digit? c with
        | none => exact Nat.succ_pos 9
        | some d => exact digit?_lt hc
      rw [hlast, List.length_append, List.length_singleton, Nat.pow_succ]
      omega

theorem digitsOf_isRow (n : Nat) : IsRow (digitsOf n) := fun _ => Nat.isDigit_of_mem_toDigits (by decide) (by decide)

theorem digitsValue_digitsOf (n : Nat) : digitsValue (digitsOf n) = n := by
  rw [(digitsOf_isRow n).digitsValue_eq]
  exact Nat.ofDigitChars_ten_toDigits

theorem length_digitsOf_le {k : Nat} (hk : 0 < k) : (digitsOf n).length ≤ k ↔ n < 10 ^ k :=
  Nat.length_toDigits_le_iff (by decide) hk

theorem digitsOf_cons (hn : 0 < n) : ∃ d ds, digitsOf n = d :: ds ∧ d ≠ '0' := by
  induction n using Nat.strongRecOn with
  | ind n ih =>
      rw [digitsOf, Nat.toDigits_eq_if (by decide)]
      split
      next hsmall =>
        have hdigit : ∀ d < 10, 0 < d → Nat.digitChar d ≠ '0' := by decide
        exact ⟨_, [], rfl, hdigit n hsmall hn⟩
      next hlarge =>
        obtain ⟨d, ds, hds, hd⟩ := ih (n / 10) (Nat.div_lt_self hn (by decide)) (by omega)
        rw [digitsOf] at hds
        exact ⟨d, ds ++ [Nat.digitChar (n % 10)], by rw [hds, List.cons_append], hd⟩

end ApiScaffold.Text
