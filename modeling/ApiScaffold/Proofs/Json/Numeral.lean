import ApiScaffold.Json.Printer
import ApiScaffold.Json.Reader
import ApiScaffold.Proofs.Decimal.Shortest
import ApiScaffold.Proofs.Text.Lines

namespace ApiScaffold

open Text

namespace Json

open Binary64 (IsLed Numeral)

variable {negative : Bool} {cs ds fs r : List Char} {n : Nat} {v : Rat}

def NoDigit (r : List Char) : Prop := r.head?.any isAsciiDigit = false

structure EndsNumber (r : List Char) : Prop where
  noDigit : NoDigit r
  noPoint : r.head? ≠ some '.'
  noExponent : r.head? ≠ some 'e' ∧ r.head? ≠ some 'E'

theorem span_row (h : IsRow ds) (hr : NoDigit r) : (ds ++ r).span isAsciiDigit = (ds, r) := span_append h hr

theorem wholeDigits_row (h : ds = ['0'] ∨ IsLed ds) (hr : NoDigit r) : wholeDigits (ds ++ r) = (ds, r) := by
  rcases h with rfl | h
  · rfl
  · obtain ⟨d, es, rfl, hd⟩ := h.lead
    rw [List.cons_append, wholeDigits]
    · exact span_row h.isRow hr
    · exact fun _ e => hd (List.cons.inj e).1

theorem fraction_row (h : IsRow fs) (hr : NoDigit r) (hpoint : r.head? ≠ some '.') :
    fraction ((if fs = [] then [] else '.' :: fs) ++ r) = (fs, r) := by
  cases fs with
  | nil =>
      cases r with
      | nil => rfl
      | cons c r =>
          rw [if_pos rfl, List.nil_append, fraction]
          exact fun t e => hpoint (congrArg List.head? e)
  | cons f fs =>
      rw [if_neg (List.cons_ne_nil f fs), List.cons_append, fraction, span_row h hr]

theorem power?_ends (h : EndsNumber r) : power? r = none := by
  cases r with
  | nil => rfl
  | cons c r =>
      have hc : ¬(c = 'e' ∨ c = 'E') :=
        not_or.2 ⟨fun e => h.noExponent.1 (congrArg some e), fun e => h.noExponent.2 (congrArg some e)⟩
      rw [power?, if_neg hc]

theorem digitsValue_zero_cons (h : IsRow ds) : digitsValue ('0' :: ds) = digitsValue ds := by
  have hzero : IsRow ['0'] := .replicate 1
  have hvalue := hzero.digitsValue_append h
  rw [show digitsValue ['0'] = 0 from digitsValue_replicate 1, Nat.zero_mul, Nat.zero_add] at hvalue
  exact hvalue

theorem exponentText_eq (e : Int) : ∃ d ds, Binary64.exponentText e = (if e < 0 then '-' else '+') :: d :: ds ∧
    IsRow (d :: ds) ∧ digitsValue (d :: ds) = e.natAbs := by
  have hrow := digitsOf_isRow e.natAbs
  have hvalue := digitsValue_digitsOf e.natAbs
  by_cases hshort : (digitsOf e.natAbs).length < 2
  · exact ⟨'0', digitsOf e.natAbs, congrArg _ (if_pos hshort), List.forall_mem_cons.2 ⟨rfl, hrow⟩,
      (digitsValue_zero_cons hrow).trans hvalue⟩
  · obtain ⟨d, ds, hds⟩ := List.exists_cons_of_ne_nil (Nat.toDigits_ne_nil (n := e.natAbs) (b := 10))
    exact ⟨d, ds, congrArg _ ((if_neg hshort).trans hds), hds ▸ hrow, hds ▸ hvalue⟩

theorem signedDigits_exponentText (e : Int) (hr : NoDigit r) : signedDigits (Binary64.exponentText e ++ r) = some (e, r) := by
  obtain ⟨d, ds, htext, hrow, hvalue⟩ := exponentText_eq e
  have hspan := span_row hrow hr
  rw [List.cons_append] at hspan
  rw [htext, List.cons_append, List.cons_append]
  by_cases hneg : e < 0
  · rw [if_pos hneg, signedDigits, hspan]
    exact congrArg some (Prod.ext (by rw [hvalue]; omega) rfl)
  · rw [if_neg hneg, signedDigits, hspan]
    exact congrArg some (Prod.ext (by rw [hvalue]; omega) rfl)

theorem power?_exponent (x : Option Int) (hr : EndsNumber r) :
    power? ((x.elim [] fun e => 'e' :: Binary64.exponentText e) ++ r) = x.map fun e => (e, r) := by
  cases x with
  | none => exact power?_ends hr
  | some e =>
      have hletter : 'e' = 'e' ∨ 'e' = 'E' := .inl rfl
      change power? ('e' :: (Binary64.exponentText e ++ r)) = _
      rw [power?, if_pos hletter, signedDigits_exponentText e hr.noDigit]
      rfl

theorem readMagnitude_of_parts {tail rest : List Char} (hne : ds ≠ []) (hwhole : wholeDigits cs = (ds, rest))
    (hfraction : fraction rest = (fs, tail)) : readMagnitude negative cs = match power? tail with
      | some (e, r) => some (.ok (.float (.ofDecimal negative (digitsValue (ds ++ fs)) (e - fs.length)), r))
      | none =>
        if fs.isEmpty then
          if Failure.digitLimit < ds.length then some (.error (.longNumeral ds.length))
          else some (.ok (.int (if negative then -(digitsValue (ds ++ fs) : Int) else digitsValue (ds ++ fs)), tail))
        else some (.ok (.float (.ofDecimal negative (digitsValue (ds ++ fs)) (-fs.length)), tail)) := by
  obtain ⟨d, es, rfl⟩ := List.exists_cons_of_ne_nil hne
  cases hpower : power? tail <;> simp only [readMagnitude, hwhole, hfraction, hpower]

theorem readMagnitude_numeral {x : Numeral} (h : x.Spells cs v) (negative : Bool) (hr : EndsNumber r) :
    readMagnitude negative (cs ++ r) =
      some (.ok (.float (.ofDecimal negative (digitsValue x.digits) x.scale), r)) := by
  let tail := (x.exponent.elim [] fun e => 'e' :: Binary64.exponentText e) ++ r
  have htail : NoDigit tail ∧ tail.head? ≠ some '.' := by
    cases hx : x.exponent with
    | none => simpa [tail, hx] using ⟨hr.noDigit, hr.noPoint⟩
    | some e => exact ⟨by simp [tail, hx, NoDigit, isAsciiDigit], by simp [tail, hx]⟩
  have hstart : NoDigit ((if x.fraction = [] then [] else '.' :: x.fraction) ++ tail) := by
    split
    · exact htail.1
    · rfl
  have htext : cs ++ r = x.whole ++ ((if x.fraction = [] then [] else '.' :: x.fraction) ++ tail) := by
    rw [h.text_eq, Numeral.text, List.append_assoc, List.append_assoc]
  have hne : x.whole ≠ [] := by
    rcases h.whole with hzero | hled
    · rw [hzero]
      exact List.cons_ne_nil _ _
    · obtain ⟨d, es, hcons, -⟩ := hled.lead
      rw [hcons]
      exact List.cons_ne_nil _ _
  have hpower : power? tail = x.exponent.map fun e => (e, r) := power?_exponent x.exponent hr
  rw [htext, readMagnitude_of_parts hne (wholeDigits_row h.whole hstart) (fraction_row h.fraction htail.1 htail.2),
    hpower]
  cases hx : x.exponent with
  | none =>
      have hfraction : x.fraction ≠ [] := h.marked.resolve_right (not_not.2 hx)
      have htailr : tail = r := by simp [tail, hx]
      simp [hfraction, htailr, Numeral.digits, Numeral.scale, hx]
  | some e => simp [Numeral.digits, Numeral.scale, hx]

theorem readMagnitude_digitsOf (negative : Bool) (hn : n < 10 ^ Failure.digitLimit) (hr : EndsNumber r) :
    readMagnitude negative (digitsOf n ++ r) = some (.ok (.int (if negative then -(n : Int) else n), r)) := by
  have hwhole : digitsOf n = ['0'] ∨ IsLed (digitsOf n) := by
    rcases Nat.eq_zero_or_pos n with rfl | hpos
    · exact .inl rfl
    · exact .inr (Binary64.digitsOf_isLed hpos)
  have hlength : ¬Failure.digitLimit < (digitsOf n).length := not_lt.2 ((length_digitsOf_le (by decide)).2 hn)
  have hnone : IsRow [] := nofun
  have hfraction := fraction_row hnone hr.noDigit hr.noPoint
  rw [if_pos rfl, List.nil_append] at hfraction
  have hne : digitsOf n ≠ [] := Nat.toDigits_ne_nil
  rw [readMagnitude_of_parts hne (wholeDigits_row hwhole hr.noDigit) hfraction, power?_ends hr,
    List.append_nil, digitsValue_digitsOf]
  simp only [List.isEmpty_nil, if_true, if_neg hlength]

end Json

namespace Number

/-- The numbers that can be written so that they are read again: those of binary64, and whole numbers that are not too
long. -/
def IsWritable : Number → Prop
  | int n => isLong n = false
  | float (.finite _ m e) => Binary64.IsCanonical m e
  | float (.infinite _) => False

theorem isLong_eq_false_iff {n : Int} : isLong n = false ↔ n.natAbs < 10 ^ Failure.digitLimit := by
  rw [isLong, Nat.pow_eq, decide_eq_false_iff_not, not_le]

end Number

namespace Json

theorem exists_magnitude {x : Number} (hx : x.IsWritable) : ∃ negative d ds,
    x.json.toList = (if negative then '-' :: d :: ds else d :: ds) ∧ d.isDigit = true ∧
      ∀ r, EndsNumber r → readMagnitude negative (d :: ds ++ r) = some (.ok (x, r)) := by
  match x, hx with
  | .int n, hlong =>
      obtain ⟨d, ds, hds⟩ := List.exists_cons_of_ne_nil (Nat.toDigits_ne_nil (n := n.natAbs) (b := 10))
      change digitsOf n.natAbs = d :: ds at hds
      have hrow := digitsOf_isRow n.natAbs
      have hshort := Number.isLong_eq_false_iff.1 hlong
      have htext : (Number.json (.int n)).toList = if n < 0 then '-' :: digitsOf n.natAbs else digitsOf n.natAbs :=
        String.toList_ofList
      rw [hds] at hrow htext
      refine ⟨decide (n < 0), d, ds, by simpa using htext, hrow d List.mem_cons_self, fun r hr => ?_⟩
      have hvalue : (if decide (n < 0) then -(n.natAbs : Int) else n.natAbs) = n := by
        by_cases hn : n < 0
        · rw [decide_eq_true hn, if_pos rfl]
          omega
        · rw [decide_eq_false hn, if_neg Bool.false_ne_true]
          omega
      rw [← hds, readMagnitude_digitsOf _ hshort hr, hvalue]
  | .float (.finite s m e), hcanonical =>
      obtain ⟨x, v, hx, hdecimal⟩ := Binary64.exists_numeral hcanonical s
      obtain ⟨d, ds, hds, hd⟩ := hx.exists_cons
      have htext : (Number.json (.float (.finite s m e))).toList =
          if s then '-' :: Binary64.positiveText s m e else Binary64.positiveText s m e := String.toList_ofList
      rw [hds] at htext hx
      exact ⟨s, d, ds, htext, hd, fun r hr => by rw [readMagnitude_numeral hx s hr, hdecimal]⟩

theorem not_isDigit_of_mem : ∀ c ∈ "ntfNI-".toList ++ "\"[\x7b".toList, ¬c.isDigit = true := by simp

theorem words_number {negative : Bool} {d : Char} (hd : d.isDigit = true) (cs : List Char) :
    words.findSome? (fun w => (stripLead? w.1.toList (if negative then '-' :: d :: cs else d :: cs)).map fun r => (w.2, r)) =
      none := by
  have hne : ∀ c ∈ "ntfNI-".toList, c ≠ d := fun c hc e => not_isDigit_of_mem c (List.mem_append_left _ hc) (e ▸ hd)
  cases negative <;> simp_all [words, stripLead?]

/-- A printed number is read as itself. -/
theorem readScalar_number {x : Number} (hx : x.IsWritable) (hr : EndsNumber r) :
    readScalar (x.json.toList ++ r) = .ok (.number x, r) := by
  obtain ⟨negative, d, ds, htext, hd, hread⟩ := exists_magnitude hx
  have hcons : x.json.toList ++ r = if negative then '-' :: d :: (ds ++ r) else d :: (ds ++ r) := by
    rw [htext]
    cases negative <;> rfl
  have hnumber : readNumber (x.json.toList ++ r) = some (.ok (x, r)) := by
    rw [hcons]
    cases negative with
    | true => exact hread r hr
    | false =>
        have hsign : d ≠ '-' := fun e => by rw [e] at hd; cases hd
        rw [if_neg Bool.false_ne_true, readNumber]
        · exact hread r hr
        · exact fun _ e => hsign (List.cons.inj e).1
  rw [readScalar, hnumber, hcons, words_number hd]
  rfl

theorem readValue_number {x : Number} (hx : x.IsWritable) (hr : EndsNumber r) (fuel : Nat) :
    readValue (fuel + 1) (x.json.toList ++ r) = .ok (.number x, r) := by
  obtain ⟨negative, d, ds, htext, hd, -⟩ := exists_magnitude hx
  have hhead : ∀ c ∈ "\"[\x7b".toList, (x.json.toList ++ r).head? ≠ some c := by
    intro c hc e
    rw [htext] at e
    cases negative with
    | true =>
        obtain rfl := Option.some.inj e
        exact absurd hc (by decide)
    | false =>
        obtain rfl := Option.some.inj e
        exact absurd hd (not_isDigit_of_mem _ (List.mem_append_right _ hc))
  rw [readValue]
  · exact readScalar_number hx hr
  · exact fun _ e => hhead '"' (by decide) (congrArg List.head? e)
  · exact fun _ e => hhead '[' (by decide) (congrArg List.head? e)
  · exact fun _ e => hhead '\x7b' (by decide) (congrArg List.head? e)

end Json

end ApiScaffold
