import ApiScaffold.Decimal.Number
import Mathlib.Data.List.Basic
import Mathlib.Data.Rat.Cast.Defs

namespace ApiScaffold.Number

variable {cs ds fs body : List Char} {n : Number} {e : Failure}

/-- A row of decimal digits of any script, with at least one of them. -/
structure IsDigits (ds : List Char) : Prop where
  ne_nil : ds ≠ []
  isDigit : ∀ c ∈ ds, Text.isDigit c = true

def signed (negative : Bool) (body : List Char) : List Char := if negative then '-' :: body else body

/-- What a plain decimal number denotes: a whole number, or the binary64 number nearest to a fraction. -/
inductive Denotes : List Char → Number → Prop
  | whole (negative : Bool) {ds : List Char} (h : IsDigits ds) :
      Denotes (signed negative ds) (.int (if negative then -(Text.digitsValue ds : Int) else Text.digitsValue ds))
  | fraction (negative : Bool) {ds fs : List Char} (hd : IsDigits ds) (hf : IsDigits fs) :
      Denotes (signed negative (ds ++ '.' :: fs))
        (.float (.nearest negative ((Text.digitsValue (ds ++ fs) : Rat) / 10 ^ fs.length)))

/-- A whole number of `k` digits, which are too many. -/
structure IsOverlong (cs : List Char) (k : Nat) : Prop where
  digits : ∃ negative ds, cs = signed negative ds ∧ IsDigits ds ∧ ds.length = k
  limit_lt : 4300 < k

theorem isDigits_iff : (!ds.isEmpty && ds.all Text.isDigit) = true ↔ IsDigits ds := by
  rw [Bool.and_eq_true, Bool.not_eq_true', List.isEmpty_eq_false_iff, List.all_eq_true]
  exact ⟨fun h => ⟨h.1, h.2⟩, fun h => ⟨h.ne_nil, h.isDigit⟩⟩

theorem IsDigits.not_mem (h : IsDigits ds) {c : Char} (hc : Text.isDigit c = false) : c ∉ ds := by
  intro hm
  rw [h.isDigit c hm] at hc
  cases hc

theorem IsDigits.head?_ne (h : IsDigits ds) (r : List Char) : (ds ++ r).head? ≠ some '-' := by
  obtain ⟨d, es, rfl⟩ := List.exists_cons_of_ne_nil h.ne_nil
  intro hhead
  obtain rfl := Option.some.inj hhead
  exact h.not_mem (c := '-') (by decide) List.mem_cons_self

theorem exists_signed (cs : List Char) :
    ∃ negative body, cs = signed negative body ∧ (negative = true ∨ body.head? ≠ some '-') := by
  by_cases hcs : cs.head? = some '-'
  · obtain ⟨body, rfl⟩ := List.head?_eq_some_iff.1 hcs
    exact ⟨true, body, rfl, .inl rfl⟩
  · exact ⟨false, cs, rfl, .inr hcs⟩

theorem read?_signed {negative : Bool} (h : negative = true ∨ body.head? ≠ some '-') :
    read? (signed negative body) = match Text.cut '.' body with
      | (ds, none) =>
        if !ds.isEmpty && ds.all Text.isDigit then
          (wholeOf ds).map fun n => some (.int (if negative then -n else n))
        else .ok none
      | (ds, some fs) =>
        if !ds.isEmpty && ds.all Text.isDigit && !fs.isEmpty && fs.all Text.isDigit then
          .ok (some (.float (.nearest negative ((Text.digitsValue (ds ++ fs) : Rat) / (Nat.pow 10 fs.length : Rat)))))
        else .ok none := by
  cases negative with
  | true => rfl
  | false =>
      have hbody := h.resolve_left Bool.false_ne_true
      unfold read? signed
      rw [if_neg Bool.false_ne_true]
      split
      next negative body' heq =>
        split at heq
        next => exact absurd rfl hbody
        next =>
          cases heq
          rfl

theorem read?_whole (negative : Bool) (h : IsDigits ds) :
    read? (signed negative ds) = (wholeOf ds).map fun n : Nat => some (.int (if negative then -(n : Int) else n)) := by
  have hhead := h.head?_ne []
  rw [List.append_nil] at hhead
  have hcut := Text.cut_of_not_mem (h.not_mem (c := '.') (by decide))
  rw [read?_signed (.inr hhead), hcut]
  dsimp only
  rw [if_pos (isDigits_iff.2 h)]
  cases wholeOf ds <;> rfl

theorem read?_fraction (negative : Bool) (hd : IsDigits ds) (hf : IsDigits fs) :
    read? (signed negative (ds ++ '.' :: fs)) =
      .ok (some (.float (.nearest negative ((Text.digitsValue (ds ++ fs) : Rat) / 10 ^ fs.length)))) := by
  have hcut := Text.cut_append (hd.not_mem (c := '.') (by decide)) fs
  have hpower : ((Nat.pow 10 fs.length : Nat) : Rat) = 10 ^ fs.length := by
    rw [Nat.pow_eq, Nat.cast_pow]
    rfl
  have hdigits : (!ds.isEmpty && ds.all Text.isDigit && !fs.isEmpty && fs.all Text.isDigit) = true := by
    rw [Bool.and_assoc, Bool.and_eq_true]
    exact ⟨isDigits_iff.2 hd, isDigits_iff.2 hf⟩
  rw [read?_signed (.inr (hd.head?_ne _)), hcut, ← hpower]
  exact if_pos hdigits

/-- A text is a whole number, a fraction, or nothing that is read. -/
theorem read?_cases (cs : List Char) :
    (∃ negative ds, cs = signed negative ds ∧ IsDigits ds) ∨
      (∃ negative ds fs, cs = signed negative (ds ++ '.' :: fs) ∧ IsDigits ds ∧ IsDigits fs) ∨ read? cs = .ok none := by
  obtain ⟨negative, body, rfl, hbody⟩ := exists_signed cs
  rw [read?_signed hbody]
  by_cases hpoint : '.' ∈ body
  · obtain ⟨ds, fs, rfl, hds⟩ := List.eq_append_cons_of_mem hpoint
    by_cases hdigits : IsDigits ds ∧ IsDigits fs
    · exact .inr (.inl ⟨negative, ds, fs, rfl, hdigits⟩)
    · rw [Text.cut_append hds]
      refine .inr (.inr (if_neg fun h => hdigits ?_))
      rw [Bool.and_assoc, Bool.and_eq_true] at h
      exact ⟨isDigits_iff.1 h.1, isDigits_iff.1 h.2⟩
  · by_cases hdigits : IsDigits body
    · exact .inl ⟨negative, body, rfl, hdigits⟩
    · rw [Text.cut_of_not_mem hpoint]
      exact .inr (.inr (if_neg (mt isDigits_iff.1 hdigits)))

theorem wholeOf_long (h : 4300 < ds.length) : wholeOf ds = .error (.longNumeral ds.length) := if_pos h

theorem wholeOf_short (h : ds.length ≤ 4300) : wholeOf ds = .ok (Text.digitsValue ds) := if_neg (Nat.not_lt.2 h)

theorem IsOverlong.read?_eq {k : Nat} (h : IsOverlong cs k) : read? cs = .error (.longNumeral k) := by
  obtain ⟨negative, ds, rfl, hds, rfl⟩ := h.digits
  rw [read?_whole negative hds, wholeOf_long h.limit_lt]
  rfl

theorem read?_eq_error_iff : read? cs = .error e ↔ ∃ k, IsOverlong cs k ∧ e = .longNumeral k := by
  constructor
  · intro h
    rcases read?_cases cs with ⟨negative, ds, rfl, hds⟩ | ⟨negative, ds, fs, rfl, hds, hfs⟩ | hnone
    · by_cases hlong : 4300 < ds.length
      · have hover : IsOverlong (signed negative ds) ds.length := ⟨⟨negative, ds, rfl, hds, rfl⟩, hlong⟩
        rw [hover.read?_eq] at h
        exact ⟨ds.length, hover, (Except.error.inj h).symm⟩
      · rw [read?_whole negative hds, wholeOf_short (Nat.le_of_not_lt hlong)] at h
        cases h
    · rw [read?_fraction negative hds hfs] at h
      cases h
    · rw [hnone] at h
      cases h
  · rintro ⟨k, hover, rfl⟩
    exact hover.read?_eq

/-- A text that denotes a number is read as that number, or it is overlong. -/
theorem Denotes.read?_eq (h : Denotes cs n) : read? cs = .ok (some n) ∨ ∃ k, IsOverlong cs k := by
  cases h with
  | @whole negative ds hds =>
      by_cases hlong : 4300 < ds.length
      · exact .inr ⟨ds.length, ⟨negative, ds, rfl, hds, rfl⟩, hlong⟩
      · left
        rw [read?_whole negative hds, wholeOf_short (Nat.le_of_not_lt hlong)]
        rfl
  | fraction negative hds hfs => exact .inl (read?_fraction negative hds hfs)

theorem read?_eq_some_iff : read? cs = .ok (some n) ↔ Denotes cs n ∧ ¬∃ k, IsOverlong cs k := by
  constructor
  · intro h
    have hshort : ¬∃ k, IsOverlong cs k := by
      rintro ⟨k, hover⟩
      rw [hover.read?_eq] at h
      cases h
    refine ⟨?_, hshort⟩
    rcases read?_cases cs with ⟨negative, ds, rfl, hds⟩ | ⟨negative, ds, fs, rfl, hds, hfs⟩ | hnone
    · rcases (Denotes.whole negative hds).read?_eq with hread | hover
      · rw [hread] at h
        cases h
        exact .whole negative hds
      · exact absurd hover hshort
    · rw [read?_fraction negative hds hfs] at h
      cases h
      exact .fraction negative hds hfs
    · rw [hnone] at h
      cases h
  · rintro ⟨hdenotes, hshort⟩
    exact hdenotes.read?_eq.resolve_right hshort

theorem read?_eq_none_iff : read? cs = .ok none ↔ ∀ n, ¬Denotes cs n := by
  constructor
  · intro h n hdenotes
    rcases hdenotes.read?_eq with hread | ⟨k, hover⟩
    · rw [hread] at h
      cases h
    · rw [hover.read?_eq] at h
      cases h
  · intro h
    rcases read?_cases cs with ⟨negative, ds, rfl, hds⟩ | ⟨negative, ds, fs, rfl, hds, hfs⟩ | hnone
    · exact absurd (.whole negative hds) (h _)
    · exact absurd (.fraction negative hds hfs) (h _)
    · exact hnone

end ApiScaffold.Number
