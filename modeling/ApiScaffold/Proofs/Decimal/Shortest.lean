import ApiScaffold.Decimal.Shortest
import ApiScaffold.Proofs.Decimal.Nearest
import ApiScaffold.Proofs.Text.Digit
import Mathlib.Tactic.FieldSimp

namespace ApiScaffold.Binary64

open Text

variable {s : Bool} {m n : Nat} {e k p : Int} {cs ds : List Char}

theorem shortest?_nearest (h : shortest? s m e = some (n, k)) : nearest s ((n : Rat) * 10 ^ k) = finite s m e := by
  obtain ⟨i, -, hi⟩ := List.exists_of_findSome?_eq_some h
  obtain ⟨d, hd, hpair⟩ := Option.map_eq_some_iff.1 hi
  cases hpair
  have hfound := List.find?_some hd
  rw [decide_eq_true_eq, power_eq] at hfound
  exact hfound

theorem exactDigits_eq (m : Nat) (e : Int) :
    ((exactDigits m e).1 : Rat) * 10 ^ (exactDigits m e).2 = magnitude m e := by
  rw [magnitude_eq, exactDigits]
  split
  next h =>
    obtain ⟨i, rfl⟩ := Int.eq_ofNat_of_zero_le h
    simp
  next h =>
    obtain ⟨i, hi⟩ := Int.eq_ofNat_of_zero_le (show 0 ≤ -e by omega)
    obtain rfl : e = -(i : Int) := by omega
    have hten : (10 : Rat) = 5 * 2 := by norm_num
    simp only [neg_neg, Int.toNat_natCast, Nat.cast_mul, Nat.pow_eq, Nat.cast_pow, Nat.cast_ofNat]
    rw [hten, mul_zpow, zpow_neg, zpow_natCast, zpow_neg, zpow_natCast]
    field_simp

theorem dropZeros_eq (ds : List Char) (e : Int) :
    ∃ i : Nat, ds = List.replicate i '0' ++ (dropZeros ds e).1 ∧ (dropZeros ds e).2 = e + i := by
  induction ds generalizing e with
  | nil => exact ⟨0, rfl, (Int.add_zero e).symm⟩
  | cons c ds ih =>
      by_cases hc : c = '0'
      · obtain ⟨i, hds, he⟩ := ih (e + 1)
        rw [hc, dropZeros]
        exact ⟨i + 1, congrArg ('0' :: ·) hds, by rw [he]; omega⟩
      · have hstay : dropZeros (c :: ds) e = (c :: ds, e) := by
          rw [dropZeros]
          exact fun _ h => hc (List.cons.inj h).1
        rw [hstay]
        exact ⟨0, rfl, (Int.add_zero e).symm⟩

structure IsLed (ds : List Char) : Prop where
  isRow : IsRow ds
  lead : ∃ d es, ds = d :: es ∧ d ≠ '0'

theorem digitsOf_isLed (hn : 0 < n) : IsLed (digitsOf n) := ⟨digitsOf_isRow n, digitsOf_cons hn⟩

theorem IsLed.of_append_zeros {i : Nat} (h : IsLed cs) (hcs : cs = ds ++ List.replicate i '0') :
    IsLed ds ∧ digitsValue cs = digitsValue ds * 10 ^ i := by
  obtain ⟨hrow, d, es, hlead, hd⟩ := h
  rw [hcs] at hrow hlead
  obtain ⟨hds, hzeros⟩ := List.forall_mem_append.1 hrow
  refine ⟨⟨hds, ?_⟩, ?_⟩
  · cases ds with
    | nil =>
        have hmem : d ∈ List.replicate i '0' := by
          rw [List.nil_append] at hlead
          exact hlead ▸ List.mem_cons_self
        exact absurd (List.eq_of_mem_replicate hmem) hd
    | cons c ds => exact ⟨c, ds, rfl, (List.cons.inj hlead).1 ▸ hd⟩
  · rw [hcs, IsRow.digitsValue_append hds hzeros, digitsValue_replicate, List.length_replicate, Nat.add_zero]

theorem exists_digits (h : IsCanonical m e) (hm : 0 < m) (s : Bool) : ∃ ds k,
    positiveText s m e = layout ds (ds.length + k) ∧ IsLed ds ∧
      nearest s ((digitsValue ds : Rat) * 10 ^ k) = finite s m e := by
  obtain ⟨n, k, htext, hnearest⟩ : ∃ n k,
      (shortest? s m e).getD (exactDigits m e) = (n, k) ∧ nearest s ((n : Rat) * 10 ^ k) = finite s m e := by
    cases hshortest : shortest? s m e with
    | none =>
        refine ⟨(exactDigits m e).1, (exactDigits m e).2, rfl, ?_⟩
        rw [exactDigits_eq, h.nearest_magnitude s]
    | some p => exact ⟨_, _, rfl, shortest?_nearest hshortest⟩
  have hn : 0 < n := by
    refine Nat.pos_of_ne_zero fun hzero => ?_
    rw [hzero, Nat.cast_zero, zero_mul, nearest_of_nonpos s (le_refl 0)] at hnearest
    cases hnearest
    exact hm.ne rfl
  obtain ⟨i, hzeros, hk⟩ := dropZeros_eq (digitsOf n).reverse k
  have hdigits : digitsOf n = (dropZeros (digitsOf n).reverse k).1.reverse ++ List.replicate i '0' := by
    rw [← List.reverse_inj, List.reverse_append, List.reverse_replicate, List.reverse_reverse, ← hzeros]
  obtain ⟨hled, hvalue⟩ := (digitsOf_isLed hn).of_append_zeros hdigits
  refine ⟨_, (dropZeros (digitsOf n).reverse k).2, ?_, hled, ?_⟩
  · rw [positiveText, if_neg hm.ne', htext, List.length_reverse]
  · rw [digitsValue_digitsOf] at hvalue
    have hq : (n : Rat) = digitsValue (dropZeros (digitsOf n).reverse k).1.reverse * 10 ^ (i : Int) := by
      rw [zpow_natCast]
      exact_mod_cast hvalue
    rw [← hnearest, hk, zpow_add₀ (by norm_num : (10 : Rat) ≠ 0), mul_comm ((10 : Rat) ^ k), ← mul_assoc, ← hq]

structure Numeral where
  whole : List Char
  fraction : List Char
  exponent : Option Int

namespace Numeral

def text (x : Numeral) : List Char :=
  x.whole ++ (if x.fraction = [] then [] else '.' :: x.fraction) ++
    x.exponent.elim [] fun e => 'e' :: exponentText e

def digits (x : Numeral) : List Char := x.whole ++ x.fraction

def scale (x : Numeral) : Int := x.exponent.getD 0 - x.fraction.length

/-- The numeral is written as the text and stands for the number. -/
structure Spells (x : Numeral) (cs : List Char) (r : Rat) : Prop where
  whole : x.whole = ['0'] ∨ IsLed x.whole
  fraction : IsRow x.fraction
  marked : x.fraction ≠ [] ∨ x.exponent ≠ none
  text_eq : cs = x.text
  value_eq : (digitsValue x.digits : Rat) * 10 ^ x.scale = r

theorem Spells.exists_cons {x : Numeral} {r : Rat} (h : x.Spells cs r) : ∃ d es, cs = d :: es ∧ d.isDigit = true := by
  have hwhole : ∃ d es, x.whole = d :: es ∧ d.isDigit = true := by
    rcases h.whole with hzero | hled
    · exact ⟨'0', [], hzero, rfl⟩
    · obtain ⟨d, es, hcons, -⟩ := hled.lead
      exact ⟨d, es, hcons, hled.isRow d (hcons ▸ List.mem_cons_self)⟩
  obtain ⟨d, es, hcons, hd⟩ := hwhole
  exact ⟨d, _, by rw [h.text_eq, text, hcons, List.cons_append, List.cons_append], hd⟩

end Numeral

open Numeral

section Layout

variable {d : Char} {es : List Char}

theorem layout_far (hd : d ≠ '0') (h : IsRow (d :: es)) (hp : p < -3 ∨ 16 < p) :
    Spells ⟨[d], es, some (p - 1)⟩ (layout (d :: es) p) ((digitsValue (d :: es) : Rat) * 10 ^ (p - (d :: es).length)) where
  whole := .inr ⟨fun c hc => h c (List.mem_singleton.1 hc ▸ List.mem_cons_self), d, [], rfl, hd⟩
  fraction c hc := h c (List.mem_cons_of_mem d hc)
  marked := .inr (Option.some_ne_none _)
  text_eq := by
    unfold layout
    rw [if_pos hp]
    cases es <;> simp [Numeral.text]
  value_eq := by
    have hscale : Numeral.scale ⟨[d], es, some (p - 1)⟩ = p - (d :: es).length := by
      simp only [Numeral.scale, Option.getD_some, List.length_cons]
      omega
    rw [hscale]
    rfl

theorem layout_below (h : IsRow ds) (hne : ds ≠ []) (hlow : -3 ≤ p) (hp : p ≤ 0) :
    Spells ⟨['0'], List.replicate (-p).toNat '0' ++ ds, none⟩ (layout ds p)
      ((digitsValue ds : Rat) * 10 ^ (p - ds.length)) where
  whole := .inl rfl
  fraction := (IsRow.replicate _).append h
  marked := .inl (by simp [hne])
  text_eq := by
    unfold layout
    rw [if_neg (by omega), if_pos hp]
    simp [Numeral.text, hne]
  value_eq := by
    have hscale : Numeral.scale ⟨['0'], List.replicate (-p).toNat '0' ++ ds, none⟩ = p - ds.length := by
      simp only [Numeral.scale, Option.getD_none, List.length_append, List.length_replicate]
      omega
    have hdigits : digits ⟨['0'], List.replicate (-p).toNat '0' ++ ds, none⟩ = List.replicate ((-p).toNat + 1) '0' ++ ds := rfl
    rw [hscale, hdigits, (IsRow.replicate _).digitsValue_append h, digitsValue_replicate, Nat.zero_mul, Nat.zero_add]

theorem layout_whole (h : IsLed ds) (hp : 0 < p) (hhigh : p ≤ 16) (hlength : ds.length ≤ p.toNat) :
    Spells ⟨ds ++ List.replicate (p.toNat - ds.length) '0', ['0'], none⟩ (layout ds p)
      ((digitsValue ds : Rat) * 10 ^ (p - ds.length)) where
  whole := by
    obtain ⟨d, es, rfl, hd⟩ := h.lead
    exact .inr ⟨h.isRow.append (.replicate _), d, _, rfl, hd⟩
  fraction := .replicate 1
  marked := .inl (List.cons_ne_nil _ _)
  text_eq := by
    unfold layout
    rw [if_neg (by omega), if_neg (by omega), if_pos hlength]
    simp [Numeral.text]
  value_eq := by
    obtain ⟨i, hi⟩ := Nat.exists_eq_add_of_le hlength
    have hscale : p - ds.length = i := by omega
    have hdigits : digits ⟨ds ++ List.replicate (p.toNat - ds.length) '0', ['0'], none⟩ = ds ++ List.replicate (i + 1) '0' := by
      rw [hi, Nat.add_sub_cancel_left, List.replicate_succ', ← List.append_assoc]
      rfl
    rw [hdigits, h.isRow.digitsValue_append (.replicate _), digitsValue_replicate, List.length_replicate, hscale, zpow_natCast]
    simp only [Numeral.scale, Option.getD_none, List.length_singleton]
    push_cast
    rw [pow_succ, add_zero, mul_assoc, mul_assoc]
    norm_num

theorem layout_inside (h : IsLed ds) (hp : 0 < p) (hhigh : p ≤ 16) (hlength : p.toNat < ds.length) :
    Spells ⟨ds.take p.toNat, ds.drop p.toNat, none⟩ (layout ds p) ((digitsValue ds : Rat) * 10 ^ (p - ds.length)) where
  whole := by
    obtain ⟨d, es, rfl, hd⟩ := h.lead
    obtain ⟨i, hi⟩ := Nat.exists_eq_add_of_lt (show 0 < p.toNat by omega)
    refine .inr ⟨fun c hc => h.isRow c (List.mem_of_mem_take hc), d, es.take i, ?_, hd⟩
    rw [hi, Nat.zero_add, List.take_succ_cons]
  fraction c hc := h.isRow c (List.mem_of_mem_drop hc)
  marked := .inl fun hnil => by
    have hend := List.drop_eq_nil_iff.1 hnil
    omega
  text_eq := by
    have hne : ds.drop p.toNat ≠ [] := fun hnil => by
      have hend := List.drop_eq_nil_iff.1 hnil
      omega
    unfold layout
    rw [if_neg (by omega), if_neg (by omega), if_neg (by omega)]
    simp [Numeral.text, hne]
  value_eq := by
    have hscale : Numeral.scale ⟨ds.take p.toNat, ds.drop p.toNat, none⟩ = p - ds.length := by
      simp only [Numeral.scale, Option.getD_none, List.length_drop]
      omega
    rw [hscale, digits, List.take_append_drop]

theorem exists_spells (h : IsLed ds) (p : Int) :
    ∃ x : Numeral, x.Spells (layout ds p) ((digitsValue ds : Rat) * 10 ^ (p - ds.length)) := by
  obtain ⟨d, es, rfl, hd⟩ := h.lead
  by_cases hfar : p < -3 ∨ 16 < p
  · exact ⟨_, layout_far hd h.isRow hfar⟩
  by_cases hlow : p ≤ 0
  · exact ⟨_, layout_below h.isRow (List.cons_ne_nil d es) (by omega) hlow⟩
  by_cases hlength : (d :: es).length ≤ p.toNat
  · exact ⟨_, layout_whole h (by omega) (by omega) hlength⟩
  · exact ⟨_, layout_inside h (by omega) (by omega) (not_le.1 hlength)⟩

end Layout

theorem length_digitsOf_bounds (hn : 0 < n) :
    (10 : Rat) ^ ((digitsOf n).length - 1 : Int) ≤ n ∧ (n : Rat) < 10 ^ ((digitsOf n).length : Int) := by
  obtain ⟨l, hl⟩ : ∃ l, (digitsOf n).length = l + 1 := by
    obtain ⟨d, es, hdigits, -⟩ := digitsOf_cons hn
    exact ⟨es.length, by rw [hdigits, List.length_cons]⟩
  have habove := (length_digitsOf_le (Nat.succ_pos l)).1 hl.le
  have hbelow : 10 ^ l ≤ n := by
    rcases Nat.eq_zero_or_pos l with rfl | hpos
    · exact hn
    · by_contra hnot
      have hshort := (length_digitsOf_le hpos).2 (not_le.1 hnot)
      omega
  rw [hl, Nat.cast_succ, add_sub_cancel_right, zpow_natCast, ← Nat.cast_succ, zpow_natCast]
  exact ⟨by exact_mod_cast hbelow, by exact_mod_cast habove⟩

theorem ofDecimal_eq (h : nearest s ((n : Rat) * 10 ^ k) = finite s m e) (hm : 0 < m) : ofDecimal s n k = finite s m e := by
  have hn : n ≠ 0 := by
    intro hzero
    rw [hzero, Nat.cast_zero, zero_mul, nearest_of_nonpos s (le_refl 0)] at h
    cases h
    exact hm.ne rfl
  obtain ⟨hlow, hhigh⟩ := range_of_nearest h hm
  obtain ⟨hbelow, habove⟩ := length_digitsOf_bounds (Nat.pos_of_ne_zero hn)
  have hten {i j : Int} (hij : i ≤ j) : (10 : Rat) ^ i ≤ 10 ^ j := zpow_le_zpow_right₀ (by norm_num) hij
  have hten0 : (10 : Rat) ≠ 0 := by norm_num
  have hpos : (0 : Rat) < 10 ^ k := by positivity
  have htiny : ¬((digitsOf n).length : Int) + k < -400 := by
    intro hsmall
    have hlt : (n : Rat) * 10 ^ k < 10 ^ (-401 : Int) := by
      refine (mul_lt_mul_of_pos_right habove hpos).trans_le ?_
      rw [← zpow_add₀ hten0]
      exact hten (by omega)
    have hgap : (10 : Rat) ^ (-401 : Int) < 2 ^ (-1075 : Int) := by
      have hnat : 2 ^ 1075 < 10 ^ 401 := by decide +kernel
      rw [zpow_neg, zpow_neg]
      exact inv_strictAnti₀ (by positivity) (by exact_mod_cast hnat)
    exact absurd hlow (not_le.2 (hlt.trans hgap))
  have hhuge : ¬400 < ((digitsOf n).length : Int) + k := by
    intro hlarge
    have hle : (10 : Rat) ^ (400 : Int) ≤ n * 10 ^ k := by
      refine le_trans ?_ (mul_le_mul_of_nonneg_right hbelow hpos.le)
      rw [← zpow_add₀ hten0]
      exact hten (by omega)
    have hgap : (2 : Rat) ^ (1024 : Int) < 10 ^ (400 : Int) := by
      have hnat : 2 ^ 1024 < 10 ^ 400 := by decide +kernel
      exact_mod_cast hnat
    exact absurd hhigh (not_lt.2 (hgap.le.trans hle))
  have hzero : ¬(n = 0 ∨ ((digitsOf n).length : Int) + k < -400) := not_or.2 ⟨hn, htiny⟩
  have hpower : power 10 k = (10 : Rat) ^ k := power_eq 10 k
  rw [← h, ← hpower]
  exact (if_neg hzero).trans (if_neg hhuge)

/-- The text of a positive number is a numeral that is read as the number. -/
theorem exists_numeral (h : IsCanonical m e) (s : Bool) :
    ∃ (x : Numeral) (r : Rat), x.Spells (positiveText s m e) r ∧ ofDecimal s (digitsValue x.digits) x.scale = finite s m e := by
  rcases Nat.eq_zero_or_pos m with rfl | hm
  · have hlow : e = -1074 := h.normal.resolve_left (by decide)
    have hzero : (digitsValue (digits ⟨['0'], ['0'], none⟩) : Rat) * 10 ^ Numeral.scale ⟨['0'], ['0'], none⟩ = 0 :=
      mul_eq_zero_of_left (Nat.cast_eq_zero.2 rfl) _
    rw [hlow]
    exact ⟨⟨['0'], ['0'], none⟩, 0, ⟨.inl rfl, .replicate 1, .inl (List.cons_ne_nil _ _), rfl, hzero⟩, rfl⟩
  · obtain ⟨ds, k, htext, hled, hnearest⟩ := exists_digits h hm s
    obtain ⟨x, hx⟩ := exists_spells hled (ds.length + k)
    refine ⟨x, _, htext ▸ hx, ofDecimal_eq ?_ hm⟩
    rw [hx.value_eq, ← hnearest, show (ds.length + k) - ds.length = k by omega]

end ApiScaffold.Binary64
