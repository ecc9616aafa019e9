import ApiScaffold.Field.Mapping
import Mathlib.Order.Bounds.Defs
import Mathlib.Tactic.SplitIfs

namespace ApiScaffold

namespace Number

theorem lt_irrefl (n : Number) : n.lt n = false := by
  unfold lt
  cases n.value with
  | finite r => exact decide_eq_false (Rat.lt_irrefl)
  | infinite s => cases s <;> rfl

theorem lt_int_mono {n : Number} {a b : Int} (hab : a ≤ b) (h : n.lt (.int a) = true) :
    n.lt (.int b) = true := by
  unfold lt at h ⊢
  cases hn : n.value with
  | finite r =>
      rw [hn] at h
      have hr : r < (a : Rat) := of_decide_eq_true h
      exact decide_eq_true (Std.lt_of_lt_of_le hr (Rat.intCast_le_intCast.2 hab))
  | infinite negative =>
      rw [hn] at h
      exact h

theorem not_int_lt_mono {n : Number} {a b : Int} (hab : a ≤ b) (h : (Number.int a).lt n = false) :
    (Number.int b).lt n = false := by
  unfold lt at h ⊢
  cases hn : n.value with
  | finite r =>
      rw [hn] at h
      have hr : ¬ (a : Rat) < r := of_decide_eq_false h
      exact decide_eq_false fun hb => hr (Std.lt_of_le_of_lt (Rat.intCast_le_intCast.2 hab) hb)
  | infinite negative =>
      rw [hn] at h
      exact h

theorem floor_spec {n : Number} {k : Int} (h : n.floor = .ok k) (a : Int) :
    n.lt (.int a) = true ↔ k < a := by
  unfold floor at h
  unfold lt
  cases hn : n.value with
  | finite r =>
      rw [hn] at h
      cases h
      exact decide_eq_true_iff.trans Rat.floor_lt_iff.symm
  | infinite negative =>
      rw [hn] at h
      cases h

theorem ceil_spec {n : Number} {k : Int} (h : n.ceil = .ok k) (a : Int) :
    (Number.int a).lt n = false ↔ k ≤ a := by
  unfold ceil at h
  unfold lt
  cases hn : n.value with
  | finite r =>
      rw [hn] at h
      cases h
      exact decide_eq_false_iff_not.trans (Rat.not_lt.trans Rat.ceil_le_iff.symm)
  | infinite negative =>
      rw [hn] at h
      cases h

end Number

namespace BoundKey

variable {key : BoundKey} {limit x : Number} {k : Int}

def admits (key : BoundKey) (limit x : Number) : Bool := if key.isLower then !x.lt limit else !limit.lt x

theorem admits_lower_iff (hkey : key.isLower = true) : key.admits limit x = true ↔ x.lt limit = false := by
  rw [admits, if_pos hkey, Bool.not_eq_true']

theorem admits_upper_iff (hkey : key.isLower = false) : key.admits limit x = true ↔ limit.lt x = false := by
  rw [admits, if_neg (Bool.eq_false_iff.1 hkey), Bool.not_eq_true']

theorem admits_self (key : BoundKey) (limit : Number) : key.admits limit limit = true := by
  rw [admits, Number.lt_irrefl, ite_self, Bool.not_false]

theorem admits_lower (hkey : key.isLower = true) (hk : limit.ceil = .ok k) (n : Int) :
    key.admits limit (.int n) = true ↔ k ≤ n := by
  rw [admits_lower_iff hkey, Number.ceil_spec hk]

theorem admits_upper (hkey : key.isLower = false) (hk : limit.floor = .ok k) (n : Int) :
    key.admits limit (.int n) = true ↔ n ≤ k := by
  rw [admits_upper_iff hkey, Bool.eq_false_iff, Ne, Number.floor_spec hk, Int.not_lt]

end BoundKey

namespace Sample

variable {s t : String} {key : BoundKey} {limit : Number} {k : Int}

/-- How the text `d` is fitted to a bound. -/
inductive IsFitted (key : BoundKey) (limit : Number) (d : List Char) : List Char → Prop
  | kept (h : key.admits limit (.int d.length) = true) : IsFitted key limit d d
  | padded (k : Nat) (h : key.admits limit (.int d.length) = false) (hkey : key.isLower = true)
      (hleast : IsLeast {n : Int | key.admits limit (.int n) = true} (d ++ List.replicate k 'x').length) :
      IsFitted key limit d (d ++ List.replicate k 'x')
  | emptied (hkey : key.isLower = false) (hnegative : limit.lt (.int 0) = true) : IsFitted key limit d []
  | cut {u : List Char} (h : key.admits limit (.int d.length) = false) (hkey : key.isLower = false) (hu : u <+: d)
      (hwithin : key.admits limit (.int u.length) = true)
      (hmax : ∀ v, v <+: d → key.admits limit (.int v.length) = true → v <+: u) : IsFitted key limit d u

/-- The bounds to which a text of a length cannot be fitted. -/
inductive Unfittable (length : Nat) (key : BoundKey) (limit : Number) : Prop
  | infinite (hkey : key.isLower = true) (hshort : (Number.int length).lt limit = true) {negative : Bool}
      (h : limit.value = .infinite negative)
  | wide (hkey : key.isLower = true) (hshort : (Number.int length).lt limit = true) {r : Rat}
      (h : limit.value = .finite r) (hwide : widest < r.ceil)
  | bottomless (hkey : key.isLower = false) (h : limit.value = .infinite true)

theorem fitText_eq (s : String) (key : BoundKey) (limit : Number) :
    fitText s key limit =
      if key.admits limit (.int s.toList.length) then .ok s
      else if key.isLower then limit.ceil >>= pad s
      else limit.floor.map fun n => .ofList (s.toList.take n.toNat) := by
  rw [fitText, BoundKey.admits, String.length_toList]
  cases key.isLower with
  | true => cases (Number.int s.length).lt limit <;> rfl
  | false => cases limit.lt (.int s.length) <;> rfl

theorem fitNumber_eq (n : Number) (key : BoundKey) (limit : Number) :
    fitNumber n key limit = if key.admits limit n then n else limit := by
  rw [fitNumber, BoundKey.admits]
  cases key.isLower with
  | true => cases n.lt limit <;> rfl
  | false => cases limit.lt n <;> rfl

theorem fitNumber_admits (n : Number) (key : BoundKey) (limit : Number) :
    key.admits limit (fitNumber n key limit) = true := by
  rw [fitNumber_eq]
  split_ifs with h
  · exact h
  · exact key.admits_self limit

theorem pad_isFitted (hkey : key.isLower = true) (hadmits : key.admits limit (.int s.toList.length) = false)
    (hk : limit.ceil = .ok k) (h : pad s k = .ok t) : IsFitted key limit s.toList t.toList := by
  have hshort : ¬k ≤ s.toList.length := by
    rw [← BoundKey.admits_lower hkey hk, hadmits]
    exact Bool.false_ne_true
  unfold pad at h
  split at h
  next => cases h
  next =>
    cases h
    rw [String.toList_append, String.toList_ofList]
    refine .padded _ hadmits hkey ⟨(BoundKey.admits_lower hkey hk _).2 ?_, fun n hn => ?_⟩
    · rw [List.length_append, List.length_replicate, ← String.length_toList]
      omega
    · have hle := (BoundKey.admits_lower hkey hk n).1 hn
      rw [List.length_append, List.length_replicate, ← String.length_toList]
      omega

theorem take_isFitted (d : List Char) (hkey : key.isLower = false) (hadmits : key.admits limit (.int d.length) = false)
    (hk : limit.floor = .ok k) : IsFitted key limit d (d.take k.toNat) := by
  have hlong : ¬(d.length : Int) ≤ k := by
    rw [← BoundKey.admits_upper hkey hk, hadmits]
    exact Bool.false_ne_true
  by_cases hnegative : k < 0
  · have hempty : d.take k.toNat = [] := by
      rw [Int.toNat_eq_zero.2 (Int.le_of_lt hnegative), List.take_zero]
    rw [hempty]
    exact .emptied hkey ((Number.floor_spec hk 0).2 hnegative)
  · refine .cut hadmits hkey (List.take_prefix _ _) ((BoundKey.admits_upper hkey hk _).2 ?_) fun v hv hwithin => ?_
    · rw [List.length_take]
      omega
    · have hle := (BoundKey.admits_upper hkey hk _).1 hwithin
      rw [List.prefix_iff_eq_take.1 hv]
      exact List.take_prefix_take_left (by omega)

theorem fitText_isFitted (h : fitText s key limit = .ok t) : IsFitted key limit s.toList t.toList := by
  rw [fitText_eq] at h
  split_ifs at h with hadmits hkey
  · cases h
    exact .kept hadmits
  · cases hk : limit.ceil with
    | error e =>
        rw [hk] at h
        cases h
    | ok k =>
        rw [hk] at h
        exact pad_isFitted hkey (Bool.eq_false_iff.2 hadmits) hk h
  · cases hk : limit.floor with
    | error e =>
        rw [hk] at h
        cases h
    | ok k =>
        rw [hk] at h
        cases h
        rw [String.toList_ofList]
        exact take_isFitted s.toList (Bool.eq_false_iff.2 hkey) (Bool.eq_false_iff.2 hadmits) hk

theorem fitText_lower (hkey : key.isLower = true) (h : fitText s key limit = .ok t) :
    (Number.int t.toList.length).lt limit = false := by
  have hfitted := fitText_isFitted h
  generalize t.toList = ts at hfitted
  cases hfitted with
  | kept hadmits => exact (BoundKey.admits_lower_iff hkey).1 hadmits
  | padded k _ _ hleast => exact (BoundKey.admits_lower_iff hkey).1 hleast.1
  | emptied hupper | cut _ hupper =>
      rw [hkey] at hupper
      cases hupper

theorem fitText_upper (hkey : key.isLower = false) (h : fitText s key limit = .ok t) :
    t.toList <+: s.toList ∧ (limit.lt (.int 0) = true ∨ limit.lt (.int t.toList.length) = false) ∧
      ∀ u, u <+: s.toList → limit.lt (.int u.length) = false → u <+: t.toList := by
  have hfitted := fitText_isFitted h
  generalize t.toList = ts at hfitted
  cases hfitted with
  | kept hadmits => exact ⟨List.prefix_rfl, .inr ((BoundKey.admits_upper_iff hkey).1 hadmits), fun u hu _ => hu⟩
  | padded k _ hlower =>
      rw [hkey] at hlower
      cases hlower
  | emptied _ hnegative =>
      refine ⟨List.nil_prefix, .inl hnegative, fun u _ hwithin => ?_⟩
      rw [Number.lt_int_mono (Int.natCast_nonneg u.length) hnegative] at hwithin
      cases hwithin
  | cut _ _ hopening hwithin hmax =>
      exact ⟨hopening, .inr ((BoundKey.admits_upper_iff hkey).1 hwithin),
        fun u hu hu' => hmax u hu ((BoundKey.admits_upper_iff hkey).2 hu')⟩

theorem Unfittable.admits_eq {length : Nat} (h : Unfittable length key limit) :
    key.admits limit (.int length) = false := by
  cases h with
  | infinite hkey hshort | wide hkey hshort => rw [BoundKey.admits, if_pos hkey, hshort, Bool.not_true]
  | bottomless hkey h =>
      have hlt : limit.lt (.int length) = true := by
        rw [Number.lt, h]
        rfl
      rw [BoundKey.admits, if_neg (Bool.eq_false_iff.1 hkey), hlt, Bool.not_true]

theorem padding_ends (s : String) (hkey : key.isLower = true) (hshort : (Number.int s.length).lt limit = true) :
    (∃ t, limit.ceil >>= pad s = .ok t) ∧ ¬Unfittable s.length key limit ∨
      (limit.ceil >>= pad s = .error .infiniteWidth ∨ limit.ceil >>= pad s = .error .wideWidth) ∧
        Unfittable s.length key limit := by
  rw [Number.ceil]
  cases hvalue : limit.value with
  | infinite negative => exact .inr ⟨.inl rfl, .infinite hkey hshort hvalue⟩
  | finite r =>
      dsimp only [bind, Except.bind]
      rw [pad]
      by_cases hwide : widest < r.ceil
      · rw [if_pos hwide]
        exact .inr ⟨.inr rfl, .wide hkey hshort hvalue hwide⟩
      · rw [if_neg hwide]
        refine .inl ⟨⟨_, rfl⟩, fun h => ?_⟩
        cases h with
        | infinite _ _ h =>
            rw [hvalue] at h
            cases h
        | wide _ _ h hceil =>
            rw [hvalue] at h
            cases h
            exact hwide hceil
        | bottomless hupper =>
            rw [hkey] at hupper
            cases hupper

theorem cutting_ends (s : String) (hkey : key.isLower = false) (hlong : limit.lt (.int s.length) = true) :
    (∃ t : String, limit.floor.map (fun n => .ofList (s.toList.take n.toNat)) = .ok t) ∧
        ¬Unfittable s.length key limit ∨
      limit.floor.map (fun n => String.ofList (s.toList.take n.toNat)) = .error .infiniteWidth ∧
        Unfittable s.length key limit := by
  rw [Number.floor]
  cases hvalue : limit.value with
  | infinite negative =>
      -- No text is longer than an infinite bound that is not negative.
      rw [Number.lt, hvalue] at hlong
      exact .inr ⟨rfl, .bottomless hkey (by rw [hvalue, show negative = true from hlong])⟩
  | finite r =>
      refine .inl ⟨⟨_, rfl⟩, fun h => ?_⟩
      cases h with
      | infinite hlower | wide hlower =>
          rw [hkey] at hlower
          cases hlower
      | bottomless _ h =>
          rw [hvalue] at h
          cases h

/-- A text is fitted to a bound unless it cannot be, and what it fails of is its width. -/
theorem fitText_ends (s : String) (key : BoundKey) (limit : Number) :
    (∃ t, fitText s key limit = .ok t) ∧ ¬Unfittable s.length key limit ∨
      (fitText s key limit = .error .infiniteWidth ∨ fitText s key limit = .error .wideWidth) ∧
        Unfittable s.length key limit := by
  rw [fitText_eq, String.length_toList]
  cases hadmits : key.admits limit (.int s.length) with
  | true =>
      refine .inl ⟨⟨s, rfl⟩, fun h => ?_⟩
      rw [h.admits_eq] at hadmits
      cases hadmits
  | false =>
      rw [if_neg Bool.false_ne_true]
      rw [BoundKey.admits] at hadmits
      cases hkey : key.isLower with
      | true =>
          rw [if_pos hkey, Bool.not_eq_false'] at hadmits
          exact padding_ends s hkey hadmits
      | false =>
          rw [if_neg (Bool.eq_false_iff.1 hkey), Bool.not_eq_false'] at hadmits
          rw [if_neg Bool.false_ne_true]
          exact (cutting_ends s hkey hadmits).imp_right fun h => ⟨.inl h.1, h.2⟩

end Sample

end ApiScaffold
