import ApiScaffold.Decimal.Binary64
import Mathlib.Algebra.Order.Field.Power
import Mathlib.Algebra.Order.Field.Rat
import Mathlib.Tactic.Positivity

namespace ApiScaffold.Binary64

variable {s : Bool} {m : Nat} {e k : Int} {r : Rat}

/-- The finite numbers of binary64: the mantissa has 53 bits, or fewer at the lowest exponent. -/
structure IsCanonical (m : Nat) (e : Int) : Prop where
  mantissa_lt : m < 2 ^ 53
  le_exponent : -1074 ≤ e
  exponent_le : e ≤ 971
  normal : 2 ^ 52 ≤ m ∨ e = -1074

theorem IsCanonical.zero : IsCanonical 0 (-1074) := ⟨by decide, by decide, by decide, .inr rfl⟩

theorem power_eq (b : Nat) (e : Int) : power b e = (b : Rat) ^ e := by
  unfold power
  split
  next h =>
    obtain ⟨n, rfl⟩ := Int.eq_ofNat_of_zero_le h
    simp
  next h =>
    obtain ⟨n, hn⟩ := Int.eq_ofNat_of_zero_le (show 0 ≤ -e by omega)
    obtain rfl : e = -(n : Int) := by omega
    simp

theorem magnitude_eq (m : Nat) (e : Int) : magnitude m e = (m : Rat) * 2 ^ e := by
  rw [magnitude, power_eq]
  rfl

theorem magnitude_pos (hm : 0 < m) : 0 < magnitude m e := by
  rw [magnitude_eq]
  positivity

theorem roundDiv_le {num den b : Nat} (hden : 0 < den) (h : num ≤ b * den) : roundDiv num den ≤ b := by
  have hquot : num / den ≤ b := Nat.div_le_of_le_mul (Nat.mul_comm b den ▸ h)
  by_cases hlt : num / den < b
  · simp only [roundDiv]
    split
    · omega
    · split <;> omega
  · have hq : num / den = b := by omega
    have hrem : num % den = 0 := by
      have hdiv := Nat.div_add_mod num den
      rw [hq, Nat.mul_comm] at hdiv
      omega
    rw [roundDiv, hrem, if_pos (by omega), hq]

theorem le_roundDiv {num den b : Nat} (hden : 0 < den) (h : b * den ≤ num) : b ≤ roundDiv num den := by
  have hquot : b ≤ num / den := (Nat.le_div_iff_mul_le hden).2 h
  simp only [roundDiv]
  split
  · exact hquot
  · split <;> omega

theorem roundDiv_one (n : Nat) : roundDiv n 1 = n := by simp [roundDiv, Nat.mod_one]

theorem num_toNat (h : 0 ≤ r) : (r.num.toNat : Rat) = r * r.den := by
  have hnum : (r.num.toNat : Int) = r.num := Int.toNat_of_nonneg (Rat.num_nonneg.2 h)
  rw [Rat.mul_den_eq_num]
  exact_mod_cast hnum

theorem roundDiv_num_le {b : Nat} (h0 : 0 ≤ r) (h : r ≤ b) : roundDiv r.num.toNat r.den ≤ b := by
  refine roundDiv_le r.den_pos ?_
  have hden : (0 : Rat) < r.den := by exact_mod_cast r.den_pos
  have hle : (r.num.toNat : Rat) ≤ b * r.den := by
    rw [num_toNat h0]
    exact mul_le_mul_of_nonneg_right h hden.le
  exact_mod_cast hle

theorem le_roundDiv_num {b : Nat} (h : (b : Rat) ≤ r) : b ≤ roundDiv r.num.toNat r.den := by
  refine le_roundDiv r.den_pos ?_
  have hden : (0 : Rat) < r.den := by exact_mod_cast r.den_pos
  have hle : (b * r.den : Rat) ≤ r.num.toNat := by
    rw [num_toNat ((Nat.cast_nonneg b).trans h)]
    exact mul_le_mul_of_nonneg_right h hden.le
  exact_mod_cast hle

theorem roundDiv_num_eq_zero (h0 : 0 ≤ r) (h : 2 * r < 1) : roundDiv r.num.toNat r.den = 0 := by
  have hden : (0 : Rat) < r.den := by exact_mod_cast r.den_pos
  have hlt : 2 * r.num.toNat < r.den := by
    have hhalf : (2 * r.num.toNat : Rat) < r.den := by
      rw [num_toNat h0, ← mul_assoc]
      exact (mul_lt_mul_of_pos_right h hden).trans_eq (one_mul _)
    exact_mod_cast hhalf
  have hquot : r.num.toNat / r.den = 0 := Nat.div_eq_of_lt (by omega)
  have hrem : r.num.toNat % r.den = r.num.toNat := Nat.mod_eq_of_lt (by omega)
  rw [roundDiv, hquot, hrem, if_pos hlt]

def Leads (k : Int) (r : Rat) : Prop := (2 : Rat) ^ (k + 52) ≤ r ∧ r < 2 ^ (k + 53)

theorem two_zpow_lt {i j : Int} : (2 : Rat) ^ i < 2 ^ j ↔ i < j := zpow_lt_zpow_iff_right₀ (by norm_num)

theorem two_zpow_le {i j : Int} : (2 : Rat) ^ i ≤ 2 ^ j ↔ i ≤ j := zpow_le_zpow_iff_right₀ (by norm_num)

theorem Leads.eq {i j : Int} (hi : Leads i r) (hj : Leads j r) : i = j := by
  have hij := two_zpow_lt.1 (hi.1.trans_lt hj.2)
  have hji := two_zpow_lt.1 (hj.1.trans_lt hi.2)
  omega

theorem log2_bounds {n : Nat} (hn : 0 < n) : (2 : Rat) ^ (n.log2 : Int) ≤ n ∧ (n : Rat) < 2 ^ ((n.log2 : Int) + 1) := by
  have hle := Nat.log2_self_le hn.ne'
  have hlt := Nat.lt_log2_self (n := n)
  rw [zpow_natCast, ← Nat.cast_succ, zpow_natCast]
  exact ⟨by exact_mod_cast hle, by exact_mod_cast hlt⟩

theorem exists_leads (hr : 0 < r) : ∃ k, Leads k r ∧ lastBit r = max k (-1074) := by
  have hnum : 0 < r.num.toNat := by
    have hpos := Rat.num_pos.2 hr
    omega
  obtain ⟨hnle, hnlt⟩ := log2_bounds hnum
  obtain ⟨hdle, hdlt⟩ := log2_bounds r.den_pos
  have hden : (0 : Rat) < r.den := by exact_mod_cast r.den_pos
  have hquot : r = r.num.toNat / r.den := by rw [num_toNat hr.le, mul_div_cancel_right₀ _ hden.ne']
  let span : Int := (r.num.toNat.log2 : Int) - r.den.log2
  have hlt : r < 2 ^ (span + 1) := by
    have hpow : (2 : Rat) ^ (span + 1) * 2 ^ (r.den.log2 : Int) = 2 ^ ((r.num.toNat.log2 : Int) + 1) := by
      rw [← zpow_add₀ two_ne_zero]
      congr 1
      omega
    rw [hquot, div_lt_iff₀ hden]
    exact hnlt.trans_le (hpow ▸ mul_le_mul_of_nonneg_left hdle (by positivity))
  have hle : (2 : Rat) ^ (span - 1) ≤ r := by
    have hpow : (2 : Rat) ^ (span - 1) * 2 ^ ((r.den.log2 : Int) + 1) = 2 ^ (r.num.toNat.log2 : Int) := by
      rw [← zpow_add₀ two_ne_zero]
      congr 1
      omega
    rw [hquot, le_div_iff₀ hden]
    exact (mul_le_mul_of_nonneg_left hdlt.le (by positivity)).trans (hpow.trans_le hnle)
  have hbit : lastBit r = max (if (2 : Rat) ^ span ≤ r then span - 52 else span - 53) (-1074) := by
    rw [lastBit, power_eq]
    rfl
  by_cases hspan : (2 : Rat) ^ span ≤ r
  · rw [if_pos hspan] at hbit
    exact ⟨span - 52, ⟨by rwa [show span - 52 + 52 = span by omega], by rwa [show span - 52 + 53 = span + 1 by omega]⟩,
      hbit⟩
  · rw [if_neg hspan] at hbit
    exact ⟨span - 53, ⟨by rwa [show span - 53 + 52 = span - 1 by omega],
      by rw [show span - 53 + 53 = span by omega]; exact not_le.1 hspan⟩, hbit⟩

def mantissaOf (r : Rat) : Nat := roundDiv (r * 2 ^ (-lastBit r)).num.toNat (r * 2 ^ (-lastBit r)).den

theorem nearest_of_pos (s : Bool) (hr : 0 < r) : nearest s r = ofParts s (mantissaOf r) (lastBit r) := by
  have hnum : ¬r.num ≤ 0 := not_le.2 (Rat.num_pos.2 hr)
  simp only [nearest, if_neg hnum, power_eq]
  rfl

theorem nearest_of_nonpos (s : Bool) (hr : r ≤ 0) : nearest s r = finite s 0 (-1074) := if_pos (Rat.num_nonpos.2 hr)

theorem mantissaOf_bounds (hr : 0 < r) :
    mantissaOf r ≤ 2 ^ 53 ∧ -1074 ≤ lastBit r ∧ (2 ^ 52 ≤ mantissaOf r ∨ lastBit r = -1074) := by
  obtain ⟨k, hk, hbit⟩ := exists_leads hr
  have hcancel (i : Int) : (2 : Rat) ^ (lastBit r + i) * 2 ^ (-lastBit r) = 2 ^ i := by
    rw [← zpow_add₀ two_ne_zero]
    congr 1
    omega
  have hpos : (0 : Rat) < 2 ^ (-lastBit r) := by positivity
  refine ⟨roundDiv_num_le (by positivity) ?_, by omega, ?_⟩
  · have hlt : r ≤ 2 ^ (lastBit r + 53) := hk.2.le.trans (two_zpow_le.2 (by omega))
    have hle := mul_le_mul_of_nonneg_right hlt hpos.le
    rw [hcancel] at hle
    exact_mod_cast hle
  · by_cases hlow : lastBit r = -1074
    · exact .inr hlow
    · have hsame : lastBit r = k := by omega
      have hle := mul_le_mul_of_nonneg_right hk.1 hpos.le
      rw [← hsame, hcancel] at hle
      exact .inl (le_roundDiv_num (by exact_mod_cast hle))

theorem ofParts_cases (hm : m ≤ 2 ^ 53) (he : -1074 ≤ e) (hnormal : 2 ^ 52 ≤ m ∨ e = -1074) (s : Bool) :
    (∃ m' e', ofParts s m e = finite s m' e' ∧ IsCanonical m' e' ∧ e ≤ 971 ∧ (m = 0 → m' = 0)) ∨
      ofParts s m e = infinite s := by
  unfold ofParts
  by_cases hcarry : m = Nat.pow 2 53
  · simp only [hcarry, if_true]
    split
    · exact .inr rfl
    · exact .inl ⟨_, _, rfl, ⟨by decide, by omega, by omega, .inl (by decide)⟩, by omega, nofun⟩
  · have hlt : m < 2 ^ 53 := lt_of_le_of_ne hm hcarry
    simp only [hcarry, if_false]
    split
    · exact .inr rfl
    · exact .inl ⟨_, _, rfl, ⟨hlt, he, by omega, hnormal⟩, by omega, id⟩

/-- Rounding gives a number of binary64. -/
theorem nearest_cases (s : Bool) (r : Rat) :
    (∃ m e, nearest s r = finite s m e ∧ IsCanonical m e) ∨ nearest s r = infinite s := by
  by_cases hr : 0 < r
  · obtain ⟨hm, he, hnormal⟩ := mantissaOf_bounds hr
    rw [nearest_of_pos s hr]
    exact (ofParts_cases hm he hnormal s).imp_left fun ⟨m, e, hparts, hcanonical, _⟩ => ⟨m, e, hparts, hcanonical⟩
  · exact .inl ⟨0, -1074, nearest_of_nonpos s (not_lt.1 hr), .zero⟩

/-- A number of binary64 is the nearest to its own value. -/
theorem IsCanonical.nearest_magnitude (h : IsCanonical m e) (s : Bool) : nearest s (magnitude m e) = finite s m e := by
  rcases Nat.eq_zero_or_pos m with rfl | hm
  · have hzero : magnitude 0 e = 0 := by simp [magnitude_eq]
    have hlow : e = -1074 := h.normal.resolve_left (by decide)
    rw [hzero, nearest_of_nonpos s (le_refl 0), hlow]
  have hr := magnitude_pos (e := e) hm
  have hbit : lastBit (magnitude m e) = e := by
    obtain ⟨k, hk, hbit⟩ := exists_leads hr
    have hmq : (m : Rat) < 2 ^ (53 : Int) := by exact_mod_cast h.mantissa_lt
    have hpos : (0 : Rat) < 2 ^ e := by positivity
    have hlt : magnitude m e < 2 ^ (e + 53) := by
      rw [magnitude_eq, add_comm, zpow_add₀ two_ne_zero]
      exact mul_lt_mul_of_pos_right hmq hpos
    have hke : k ≤ e := by
      have hbelow := two_zpow_lt.1 (hk.1.trans_lt hlt)
      omega
    have hle := h.le_exponent
    rcases h.normal with hnormal | hlow
    · have hnq : (2 : Rat) ^ (52 : Int) ≤ m := by exact_mod_cast hnormal
      have hleads : Leads e (magnitude m e) := by
        refine ⟨?_, hlt⟩
        rw [magnitude_eq, add_comm, zpow_add₀ two_ne_zero]
        exact mul_le_mul_of_nonneg_right hnq hpos.le
      have hsame := hk.eq hleads
      omega
    · omega
  have hscaled : magnitude m e * 2 ^ (-lastBit (magnitude m e)) = m := by
    rw [hbit, magnitude_eq, mul_assoc, ← zpow_add₀ two_ne_zero, add_neg_cancel, zpow_zero, mul_one]
  have hmantissa : mantissaOf (magnitude m e) = m := by
    rw [mantissaOf, hscaled]
    exact roundDiv_one m
  have hcarry : m ≠ Nat.pow 2 53 := h.mantissa_lt.ne
  have hexponent : ¬971 < e := not_lt.2 h.exponent_le
  rw [nearest_of_pos s hr, hbit, hmantissa, ofParts, if_neg hcarry]
  exact if_neg hexponent

theorem range_of_nearest (h : nearest s r = finite s m e) (hm : 0 < m) :
    (2 : Rat) ^ (-1075 : Int) ≤ r ∧ r < 2 ^ (1024 : Int) := by
  have hr : 0 < r := by
    by_contra hnot
    rw [nearest_of_nonpos s (not_lt.1 hnot)] at h
    cases h
    exact hm.ne rfl
  obtain ⟨hle, hlow, hnormal⟩ := mantissaOf_bounds hr
  obtain ⟨k, hk, hbit⟩ := exists_leads hr
  rw [nearest_of_pos s hr] at h
  rcases ofParts_cases hle hlow hnormal s with ⟨m', e', hparts, -, hbound, hzero⟩ | hinfinite
  · rw [hparts] at h
    cases h
    refine ⟨not_lt.1 fun hsmall => ?_, hk.2.trans_le (two_zpow_le.2 (by omega))⟩
    have hbelow := two_zpow_lt.1 (hk.1.trans_lt hsmall)
    have hlast : lastBit r = -1074 := by omega
    have hhalf : 2 * (r * 2 ^ (-lastBit r)) < 1 := by
      have hpos : (0 : Rat) < 2 ^ (1074 : Int) := by positivity
      have hlt := mul_lt_mul_of_pos_right hsmall hpos
      have hpow : (2 : Rat) * (2 ^ (-1075 : Int) * 2 ^ (1074 : Int)) = 1 := by
        rw [← zpow_add₀ two_ne_zero]
        norm_num
      rw [hlast, neg_neg, ← hpow]
      exact mul_lt_mul_of_pos_left hlt two_pos
    exact hm.ne' (hzero (roundDiv_num_eq_zero (by positivity) hhalf))
  · rw [hinfinite] at h
    cases h

end ApiScaffold.Binary64
