import ApiScaffold.Text.Character
import ApiScaffold.Text.Letter

namespace ApiScaffold.Text

def IsWord (cs : List Char) : Prop := ∀ c ∈ cs, isBlank c = false

-- Left to itself, instance search may go through every character there is.
instance (cs : List Char) : Decidable (IsWord cs) := List.decidableBAll (fun c => isBlank c = false) cs

theorem IsWord.append {cs ds : List Char} (hc : IsWord cs) (hd : IsWord ds) : IsWord (cs ++ ds) := by
  intro c h
  rcases List.mem_append.1 h with h | h
  · exact hc c h
  · exact hd c h

theorem IsWord.concat {s t : String} (hs : IsWord s.toList) (ht : IsWord t.toList) :
    IsWord (s ++ t).toList := by
  rw [String.toList_append]
  exact hs.append ht

theorem IsWord.not_mem {cs : List Char} (h : IsWord cs) {x : Char} (hx : isBlank x = true) : x ∉ cs := by
  intro hm
  rw [h x hm] at hx
  exact Bool.false_ne_true hx

/-- The only blanks in the text are spaces. -/
def IsPhrase (cs : List Char) : Prop := ∀ c ∈ cs, isBlank c = true → c = ' '

instance (cs : List Char) : Decidable (IsPhrase cs) :=
  List.decidableBAll (fun c => isBlank c = true → c = ' ') cs

theorem IsWord.isPhrase {cs : List Char} (h : IsWord cs) : IsPhrase cs :=
  fun _ hc hb => absurd hc (h.not_mem hb)

theorem IsPhrase.append {cs ds : List Char} (hc : IsPhrase cs) (hd : IsPhrase ds) : IsPhrase (cs ++ ds) := by
  intro c h
  rcases List.mem_append.1 h with h | h
  · exact hc c h
  · exact hd c h

theorem IsPhrase.concat {s t : String} (hs : IsPhrase s.toList) (ht : IsPhrase t.toList) :
    IsPhrase (s ++ t).toList := by
  rw [String.toList_append]
  exact hs.append ht

theorem IsPhrase.literal {cs : List Char} (h : IsPhrase cs) : IsPhrase (String.ofList cs).toList := by
  rwa [String.toList_ofList]

theorem IsPhrase.not_mem {cs : List Char} (h : IsPhrase cs) {x : Char} (hb : isBlank x = true)
    (hs : x ≠ ' ') : x ∉ cs := fun hm => hs (h x hm hb)

def blankRuns : List (Nat × Nat) := [
  (9, 13), (0x1c, 0x20), (0x85, 0x85), (0xa0, 0xa0), (0x1680, 0x1680), (0x2000, 0x200a),
  (0x2028, 0x2029), (0x202f, 0x202f), (0x205f, 0x205f), (0x3000, 0x3000)]

theorem isBlank_iff (c : Char) : isBlank c = true ↔ ∃ r ∈ blankRuns, r.1 ≤ c.toNat ∧ c.toNat ≤ r.2 := by
  simp [isBlank, blankRuns]
  omega

theorem expansions_not_blank : ∀ e ∈ expansions, ∀ n ∈ e.2, isBlank (Char.ofNat n) = false := by decide

theorem shiftRuns_not_blank : ∀ e ∈ shiftRuns, ∀ b ∈ blankRuns,
    (e.2.1 : Int) + e.2.2.2 < b.1 ∨ (b.2 : Int) < e.1 + e.2.2.2 := by decide +kernel

theorem toNat_ofNat_cases (n : Nat) : (Char.ofNat n).toNat = n ∨ (Char.ofNat n).toNat = 0 := by
  by_cases h : n.isValidChar
  · left
    rw [Char.ofNat, dif_pos h]
    rfl
  · right
    rw [Char.ofNat, dif_neg h]
    rfl

theorem shifted_not_blank {c : Char} (hc : isBlank c = false) : isBlank (shifted c) = false := by
  unfold shifted
  split
  next first last step distance he =>
    have hm := List.mem_of_find?_eq_some he
    have hp := List.find?_some he
    simp only [Bool.and_eq_true, decide_eq_true_eq] at hp
    refine Bool.eq_false_iff.2 fun h => ?_
    obtain ⟨b, hb, hl, hu⟩ := (isBlank_iff _).1 h
    have hlow : ∀ b ∈ blankRuns, 0 < b.1 := by decide
    have hpos := hlow b hb
    have hrun : (last : Int) + distance < b.1 ∨ (b.2 : Int) < first + distance :=
      shiftRuns_not_blank _ hm b hb
    rcases toNat_ofNat_cases ((c.toNat : Int) + distance).toNat with h' | h' <;> omega
  next => exact hc

theorem upper_isWord {c : Char} (hc : isBlank c = false) : IsWord (upper c) := by
  unfold upper
  split
  next codes he =>
    intro d hd
    obtain ⟨n, hn, rfl⟩ := List.mem_map.1 hd
    obtain ⟨before, after, hs, -⟩ := List.lookup_eq_some_iff.1 he
    exact expansions_not_blank (c.toNat, codes) (by rw [hs]; simp) n hn
  next =>
    intro d hd
    rw [List.mem_singleton.1 hd]
    exact shifted_not_blank hc

theorem capitalize_isWord {s : String} (h : IsWord s.toList) : IsWord (capitalize s).toList := by
  unfold capitalize
  split
  next => exact fun c hc => absurd hc (by simp)
  next c cs he =>
    rw [he] at h
    rw [String.toList_ofList]
    exact (upper_isWord (h c (by simp))).append fun d hd => h d (by simp [hd])

theorem expansions_ne_nil : ∀ e ∈ expansions, e.2 ≠ [] := by decide

theorem upper_ne_nil (c : Char) : upper c ≠ [] := by
  unfold upper
  split
  next codes he =>
    obtain ⟨before, after, hs, -⟩ := List.lookup_eq_some_iff.1 he
    have hne := expansions_ne_nil (c.toNat, codes) (by rw [hs]; simp)
    simpa using hne
  next => exact List.cons_ne_nil _ _

theorem capitalize_ne_empty {s : String} (h : s ≠ "") : capitalize s ≠ "" := by
  unfold capitalize
  split
  next he => exact absurd (String.toList_eq_nil_iff.1 he) h
  next c cs he =>
    have hne := upper_ne_nil c
    simp [hne]

end ApiScaffold.Text
