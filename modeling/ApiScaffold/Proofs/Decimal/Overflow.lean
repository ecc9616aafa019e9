import ApiScaffold.Proofs.Decimal.Nearest
import Mathlib.Tactic.Linarith

namespace ApiScaffold.Binary64

variable {s t : Bool} {m num den b : Nat} {e : Int} {r : Rat}

/-- Rounding to an even number goes up from a half. -/
theorem roundDiv_eq_succ_iff (hden : 0 < den) (hodd : b % 2 = 1) (h : num < (b + 1) * den) :
    roundDiv num den = b + 1 ↔ (2 * b + 1) * den ≤ 2 * num := by
  have hhalf : (2 * b + 1) * den = 2 * (b * den) + den := by rw [Nat.add_mul, Nat.mul_assoc, Nat.one_mul]
  have hquot : num / den ≤ b := Nat.lt_succ_iff.1 ((Nat.div_lt_iff_lt_mul hden).2 h)
  have hdiv := Nat.div_add_mod num den
  rcases Nat.lt_or_eq_of_le hquot with hlt | heq
  · have hnum : num < b * den := (Nat.div_lt_iff_lt_mul hden).1 hlt
    have hround : roundDiv num den ≤ b := roundDiv_le hden hnum.le
    omega
  · rw [heq, Nat.mul_comm] at hdiv
    simp only [roundDiv, heq]
    split_ifs <;> omega

theorem roundDiv_num_eq_succ_iff (hodd : b % 2 = 1) (h0 : 0 ≤ r) (h : r < b + 1) :
    roundDiv r.num.toNat r.den = b + 1 ↔ 2 * (b : Rat) + 1 ≤ 2 * r := by
  have hden : (0 : Rat) < r.den := by exact_mod_cast r.den_pos
  have hbelow : r.num.toNat < (b + 1) * r.den := by
    have hlt : (r.num.toNat : Rat) < (b + 1) * r.den := by
      rw [num_toNat h0]
      exact mul_lt_mul_of_pos_right h hden
    exact_mod_cast hlt
  rw [roundDiv_eq_succ_iff r.den_pos hodd hbelow, ← @Nat.cast_le Rat]
  push_cast
  rw [num_toNat h0, ← mul_assoc, mul_le_mul_iff_left₀ hden]

theorem ofParts_eq_infinite_iff :
    ofParts s m e = infinite t ↔ s = t ∧ (971 < e ∨ m = 2 ^ 53 ∧ e = 971) := by
  have hcarry : Nat.pow 2 53 = 2 ^ 53 := rfl
  unfold ofParts
  by_cases hm : m = 2 ^ 53
  · rw [if_pos (hm.trans hcarry.symm)]
    dsimp only
    split_ifs with he <;> simp [hm] <;> omega
  · have hstay : ¬(m = 2 ^ 53 ∧ e = 971) := fun h => hm h.1
    rw [if_neg (hcarry ▸ hm), or_iff_left hstay]
    dsimp only
    split_ifs with he <;> simp [he]

/-- Half a unit above the largest finite number. -/
def overflow : Rat := (2 ^ 54 - 1) * 2 ^ 970

theorem overflow_bounds : (2 : Rat) ^ (1023 : Int) ≤ overflow ∧ overflow ≤ (2 : Rat) ^ (1024 : Int) := by
  have hpow (n : Nat) : (2 : Rat) ^ ((n + 970 : Nat) : Int) = 2 ^ n * 2 ^ 970 := by rw [zpow_natCast, pow_add]
  have hpos : (0 : Rat) ≤ 2 ^ 970 := by positivity
  refine ⟨(hpow 53).trans_le ?_, le_trans ?_ (hpow 54).ge⟩
  · exact mul_le_mul_of_nonneg_right (by norm_num) hpos
  · exact mul_le_mul_of_nonneg_right (by norm_num) hpos

theorem overflow_le_ten {n : Nat} (h : 309 ≤ n) : overflow ≤ 10 ^ n := by
  have hnat : 2 ^ 1024 ≤ 10 ^ n := le_trans (by decide +kernel) (Nat.pow_le_pow_right (Nat.succ_pos 9) h)
  exact overflow_bounds.2.trans (by exact_mod_cast hnat)

theorem mantissaOf_eq_carry_iff (hr : Leads 971 r) (hbit : lastBit r = 971) :
    mantissaOf r = 2 ^ 53 ↔ overflow ≤ r := by
  have hpos : (0 : Rat) < 2 ^ (-971 : Int) := by positivity
  have hr0 : 0 ≤ r := le_trans (by positivity) hr.1
  have hlt : r * 2 ^ (-971 : Int) < ((2 ^ 53 - 1 : Nat) : Rat) + 1 := by
    have hscaled := mul_lt_mul_of_pos_right hr.2 hpos
    rw [← zpow_add₀ two_ne_zero] at hscaled
    exact hscaled.trans_eq (by norm_num)
  have htwice : 2 * (r * 2 ^ (-971 : Int)) = r / 2 ^ 970 := by
    rw [mul_left_comm, ← zpow_one_add₀ two_ne_zero, div_eq_mul_inv, ← zpow_natCast, ← zpow_neg]
    rfl
  have hround := roundDiv_num_eq_succ_iff (b := 2 ^ 53 - 1) (by decide) (mul_nonneg hr0 hpos.le) hlt
  rw [htwice, le_div_iff₀ (by positivity)] at hround
  have hleast : 2 * ((2 ^ 53 - 1 : Nat) : Rat) + 1 = 2 ^ 54 - 1 := by norm_num
  rw [mantissaOf, hbit, overflow, ← hleast]
  exact hround

/-- A number is rounded to infinity from half a unit above the largest one. -/
theorem nearest_eq_infinite_iff : nearest s r = infinite t ↔ s = t ∧ overflow ≤ r := by
  obtain ⟨hlower, hupper⟩ := overflow_bounds
  by_cases hr : 0 < r
  · obtain ⟨k, hk, hbit⟩ := exists_leads hr
    rw [nearest_of_pos s hr, ofParts_eq_infinite_iff]
    refine and_congr_right fun _ => ?_
    rcases lt_trichotomy k 971 with hlow | rfl | hhigh
    · have hlt : r < 2 ^ (1023 : Int) := hk.2.trans_le (two_zpow_le.2 (by omega))
      exact iff_of_false (by omega) (not_le.2 (hlt.trans_le hlower))
    · rw [← mantissaOf_eq_carry_iff hk (by omega)]
      omega
    · have hle : 2 ^ (1024 : Int) ≤ r := (two_zpow_le.2 (by omega)).trans hk.1
      exact iff_of_true (by omega) (hupper.trans hle)
  · have hpos : 0 < overflow := lt_of_lt_of_le (by positivity) hlower
    rw [nearest_of_nonpos s (not_lt.1 hr)]
    exact iff_of_false nofun fun h => hr (hpos.trans_le h.2)

end ApiScaffold.Binary64
