import ApiScaffold.Identifier
import ApiScaffold.Proofs.Text.Breaks

namespace ApiScaffold

namespace Text

variable {c : Char} {bs cs : List Char} {n : String}

theorem forall_ascii {P : Char → Prop} (h : ∀ k < 128, P (Char.ofNat k)) (hc : c.toNat < 128) : P c := by
  have hp := h c.toNat hc
  rwa [Char.ofNat_toNat] at hp

theorem isLower_iff : c.isLower ↔ 97 ≤ c.toNat ∧ c.toNat ≤ 122 := by
  have hrange : c.isLower = (decide (97 ≤ c.val) && decide (c.val ≤ 122)) := rfl
  simp [hrange, UInt32.le_iff_toNat_le, ← Char.toNat_val]

theorem isUpper_iff : c.isUpper ↔ 65 ≤ c.toNat ∧ c.toNat ≤ 90 := by
  have hrange : c.isUpper = decide (65 ≤ c.val ∧ c.val ≤ 90) := rfl
  simp [hrange, UInt32.le_iff_toNat_le, ← Char.toNat_val]

theorem isAlpha_eq (c : Char) : c.isAlpha = (c.isUpper || c.isLower) := rfl

theorem toUpper_of_not_isLower (h : ¬c.isLower) : c.toUpper = c := by
  have hrange : ¬(97 ≤ c.val ∧ c.val ≤ 122) := fun hc => h (isLower_iff.2 hc)
  exact dif_neg hrange

theorem start_lt (h : Identifier.isStart c) : c.toNat < 128 := by
  simp only [Identifier.isStart, isAlpha_eq, Bool.or_eq_true, beq_iff_eq, isLower_iff, isUpper_iff] at h
  rcases h with ((h | h) | rfl) | rfl
  · omega
  · omega
  · decide
  · decide

theorem upper_start (h : Identifier.isStart c) : upper c = [c.toUpper] :=
  forall_ascii (P := fun c => Identifier.isStart c → upper c = [c.toUpper]) (by decide +kernel) (start_lt h) h

theorem toUpper_small (h : c.isLower) : c.toUpper.toLower = c ∧ ¬c.toUpper.isLower := by
  have hlt : c.toNat < 128 := by
    have hc := isLower_iff.1 h
    omega
  exact forall_ascii (P := fun c => c.isLower → c.toUpper.toLower = c ∧ ¬c.toUpper.isLower)
    (by decide +kernel) hlt h

theorem toList_capitalize (hn : n.toList = c :: cs) (h : Identifier.isStart c) :
    (capitalize n).toList = c.toUpper :: cs := by
  rw [capitalize, hn]
  dsimp only
  rw [String.toList_ofList, upper_start h, List.singleton_append]

theorem shifted_cases (c : Char) : shifted c = c ∨ 65 ≤ (shifted c).toNat ∨ (shifted c).toNat = 0 := by
  have hshifts : ∀ e ∈ shiftRuns, 65 ≤ (e.1 : Int) + e.2.2.2 := by decide +kernel
  unfold shifted
  split
  next first last step distance he =>
    have hp := List.find?_some he
    have hle : 65 ≤ (first : Int) + distance := hshifts _ (List.mem_of_find?_eq_some he)
    simp only [Bool.and_eq_true, decide_eq_true_eq] at hp
    rcases toNat_ofNat_cases ((c.toNat : Int) + distance).toNat with h | h <;> omega
  next => exact .inl rfl

theorem eq_of_mem_upper {x : Char} (hpos : 0 < x.toNat) (hlow : x.toNat < 65) (h : x ∈ upper c) : x = c := by
  have hexpansions : ∀ e ∈ expansions, ∀ k ∈ e.2, 65 ≤ (Char.ofNat k).toNat := by decide +kernel
  unfold upper at h
  split at h
  next codes he =>
    obtain ⟨k, hk, rfl⟩ := List.mem_map.1 h
    obtain ⟨before, after, hs, -⟩ := List.lookup_eq_some_iff.1 he
    have hle := hexpansions (c.toNat, codes) (by rw [hs]; simp) k hk
    omega
  next =>
    obtain rfl := List.mem_singleton.1 h
    rcases shifted_cases c with h | h | h
    · exact h
    · omega
    · omega

theorem upper_blank (h : isBlank c = true) : upper c = [c] := by
  have hall : ∀ b ∈ blankRuns, ∀ k ∈ List.range' b.1 (b.2 + 1 - b.1),
      upper (Char.ofNat k) = [Char.ofNat k] := by decide +kernel
  obtain ⟨b, hb, hlow, hhigh⟩ := (isBlank_iff c).1 h
  have hc := hall b hb c.toNat (List.mem_range'_1.2 ⟨hlow, by omega⟩)
  rwa [Char.ofNat_toNat] at hc

theorem toList_capitalize_cons (hn : n.toList = c :: cs) : (capitalize n).toList = upper c ++ cs := by
  rw [capitalize, hn]
  exact String.toList_ofList

theorem isWord_of_capitalize (h : IsWord (capitalize n).toList) : IsWord n.toList := by
  cases hn : n.toList with
  | nil => exact fun c hc => by cases hc
  | cons c cs =>
      rw [toList_capitalize_cons hn] at h
      have hcs : IsWord cs := fun d hd => h d (List.mem_append_right _ hd)
      cases hc : isBlank c with
      | false => exact List.forall_mem_cons.2 ⟨hc, hcs⟩
      | true =>
          have hblank := h c (by rw [upper_blank hc]; simp)
          rw [hc] at hblank
          cases hblank

theorem not_mem_capitalize {x : Char} (hpos : 0 < x.toNat) (hlow : x.toNat < 65) (h : x ∉ n.toList) :
    x ∉ (capitalize n).toList := by
  cases hn : n.toList with
  | nil => rw [String.toList_eq_nil_iff.1 hn]; exact List.not_mem_nil
  | cons c cs =>
      rw [hn, List.mem_cons, not_or] at h
      rw [toList_capitalize_cons hn]
      exact List.not_mem_append (fun hx => h.1 (eq_of_mem_upper hpos hlow hx)) h.2

theorem capitalize_break_iff : (∃ as, (capitalize n).toList = as ++ '\n' :: bs) ↔
    ∃ as, n.toList = as ++ '\n' :: bs := by
  cases hn : n.toList with
  | nil => rw [String.toList_eq_nil_iff.1 hn]; rfl
  | cons c cs =>
      rw [toList_capitalize_cons hn]
      have hself : upper '\n' = ['\n'] := upper_blank rfl
      constructor
      · rintro ⟨as, h⟩
        rcases append_eq_break h with ⟨es, hup, rfl⟩ | ⟨es, rfl, -⟩
        · obtain rfl : '\n' = c := eq_of_mem_upper (by decide) (by decide) (by rw [hup]; simp)
          rw [hself] at hup
          cases as with
          | nil => exact ⟨[], by rw [← (List.cons.inj hup).2]; rfl⟩
          | cons a as => simp at hup
        · exact ⟨c :: es, rfl⟩
      · rintro ⟨as, h⟩
        cases as with
        | nil =>
            obtain ⟨rfl, rfl⟩ := List.cons.inj h
            exact ⟨[], by rw [hself]; rfl⟩
        | cons a as =>
            obtain ⟨rfl, rfl⟩ := List.cons.inj h
            exact ⟨upper c ++ as, by simp⟩

end Text

end ApiScaffold
