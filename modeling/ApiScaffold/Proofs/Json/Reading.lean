import ApiScaffold.Json.Layout
import ApiScaffold.Json.Reader
import ApiScaffold.Proofs.Spelled
import ApiScaffold.Proofs.Text.Lines

namespace ApiScaffold

namespace Text

theorem hexDigit?_digitChar : ∀ d < 16, hexDigit? (Nat.digitChar d) = some d := by decide

theorem hex_succ {w : Nat} (hw : 0 < w) (n : Nat) : hex (w + 1) n = hex w (n / 16) ++ [Nat.digitChar (n % 16)] := by
  have hdigits : Nat.toDigits 16 n =
      if n < 16 then [n.digitChar] else Nat.toDigits 16 (n / 16) ++ [(n % 16).digitChar] :=
    Nat.toDigits_eq_if (by decide)
  rw [hex, hex, hdigits]
  by_cases h : n < 16
  · obtain ⟨v, rfl⟩ := Nat.exists_eq_add_of_lt hw
    rw [if_pos h, Nat.div_eq_of_lt h, Nat.mod_eq_of_lt h]
    exact congrArg (· ++ [n.digitChar]) List.replicate_succ'
  · rw [if_neg h]
    simp

theorem hex_eq {n : Nat} (h : n < 0x10000) : hex 4 n = [Nat.digitChar (n / 16 / 16 / 16),
    Nat.digitChar (n / 16 / 16 % 16), Nat.digitChar (n / 16 % 16), Nat.digitChar (n % 16)] := by
  have hlast : hex 1 (n / 16 / 16 / 16) = [Nat.digitChar (n / 16 / 16 / 16)] := by
    rw [hex, Nat.toDigits_of_lt_base (by omega)]
    rfl
  rw [hex_succ (by decide), hex_succ (by decide), hex_succ (by decide), hlast]
  rfl

end Text

namespace Json

open Text

variable {cs r opening : List Char} {c : Char} {n fuel : Nat}

theorem hexValue?_hex (h : n < 0x10000) : hexValue? (hex 4 n) = some n := by
  rw [hex_eq h, hexValue?]
  simp only [List.foldlM_cons, List.foldlM_nil, hexDigit?_digitChar _ (Nat.mod_lt _ (by decide : 0 < 16)),
    hexDigit?_digitChar (n / 16 / 16 / 16) (by omega), Option.map_some, Option.bind_eq_bind, Option.bind_some]
  exact congrArg some (by omega)

theorem codeUnit?_hex (h : n < 0x10000) (hr : r ≠ []) : codeUnit? (hex 4 n ++ r) = some (n, r) := by
  have hvalue := hexValue?_hex h
  rw [hex_eq h] at hvalue ⊢
  cases r with
  | nil => exact absurd rfl hr
  | cons c r => exact congrArg (Option.map fun u => (u, c :: r)) hvalue

theorem readUnits_unitEscape (h : n < 0x10000) (hr : r ≠ []) : readUnits opening (fuel + 1) (unitEscape n ++ r) =
    (readUnits opening fuel r).map fun p => (n :: p.1, p.2) := by
  rw [unitEscape, List.cons_append, List.cons_append, readUnits, codeUnit?_hex h hr]

theorem code_cases (c : Char) : c.toNat < 0xd800 ∨ 0xdfff < c.toNat ∧ c.toNat < 0x110000 := c.valid

theorem units_lt (c : Char) : ∀ u ∈ units c.toNat, u < 0x10000 := by
  have hc := code_cases c
  unfold units
  split
  · simpa
  · simp only [List.mem_cons, List.not_mem_nil, or_false, forall_eq_or_imp, forall_eq]
    omega

theorem readUnits_escapes {us : List Nat} (hus : ∀ u ∈ us, u < 0x10000) (hr : r ≠ []) :
    readUnits opening (fuel + us.length) (us.flatMap unitEscape ++ r) =
      (readUnits opening fuel r).map fun p => (us ++ p.1, p.2) := by
  induction us with
  | nil => cases hread : readUnits opening fuel r <;> simp [hread, Except.map]
  | cons u us ih =>
      obtain ⟨hu, hus⟩ := List.forall_mem_cons.1 hus
      rw [List.flatMap_cons, List.append_assoc, List.length_cons, ← Nat.add_assoc,
        readUnits_unitEscape hu (by simp [hr]), ih hus]
      cases readUnits opening fuel r <;> rfl

theorem readUnits_simple {u : Nat} (hc : simpleEscape? c = some u) (hne : c ≠ 'u') :
    readUnits opening (fuel + 1) ('\\' :: c :: r) = (readUnits opening fuel r).map fun p => (u :: p.1, p.2) := by
  rw [readUnits]
  · rw [hc]
  · exact hne

theorem readUnits_plain (hquote : c ≠ '"') (hback : c ≠ '\\') (hc : 0x20 ≤ c.toNat) :
    readUnits opening (fuel + 1) (c :: r) = (readUnits opening fuel r).map fun p => (c.toNat :: p.1, p.2) := by
  rw [readUnits]
  · exact if_neg (by omega)
  · exact fun e _ => hback e
  · exact hquote
  · exact fun _ e _ => hback e
  · exact fun _ _ e _ => hback e

theorem readUnits_escape (c : Char) (hr : r ≠ []) : readUnits opening (fuel + (units c.toNat).length) (escape c ++ r) =
    (readUnits opening fuel r).map fun p => (units c.toNat ++ p.1, p.2) := by
  unfold escape
  -- the characters with an escape of their own
  iterate 7
    split
    next h =>
      subst h
      exact readUnits_simple rfl (by decide)
  split
  next hquote hback _ _ _ _ _ h =>
    have hunits : units c.toNat = [c.toNat] := if_pos (by omega)
    rw [hunits]
    exact readUnits_plain hquote hback h.1
  next => exact readUnits_escapes (units_lt c) hr

def codes (cs : List Char) : List Nat := cs.flatMap fun c => units c.toNat

theorem readUnits_text (hfuel : (codes cs).length < fuel) :
    readUnits opening fuel (cs.flatMap escape ++ '"' :: r) = .ok (codes cs, r) := by
  induction cs generalizing fuel with
  | nil =>
      obtain ⟨k, rfl⟩ := Nat.exists_eq_add_of_lt hfuel
      rfl
  | cons c cs ih =>
      rw [codes, List.flatMap_cons, List.length_append] at hfuel
      obtain ⟨k, rfl⟩ : ∃ k, fuel = k + (units c.toNat).length := ⟨fuel - (units c.toNat).length, by omega⟩
      rw [List.flatMap_cons, List.append_assoc, readUnits_escape c (by simp), ih (by rw [codes]; omega)]
      rfl

theorem joinUnits_single (hhigh : isHigh n = false) (us : List Nat) : joinUnits (n :: us) = n :: joinUnits us := by
  cases us with
  | nil => rfl
  | cons v us => simp [joinUnits, hhigh]

theorem joinUnits_pair {u v : Nat} (hu : isHigh u = true) (hv : isLow v = true) (us : List Nat) :
    joinUnits (u :: v :: us) = joinPair u v :: joinUnits us := by
  simp [joinUnits, hu, hv]

theorem joinPair_units {n : Nat} (h : 0x10000 ≤ n) :
    joinPair (0xd800 + (n - 0x10000) / 0x400) (0xdc00 + (n - 0x10000) % 0x400) = n := by
  have hdiv := Nat.div_add_mod' (n - 0x10000) 0x400
  unfold joinPair
  omega

theorem joinUnits_codes (cs : List Char) : joinUnits (codes cs) = cs.map Char.toNat := by
  induction cs with
  | nil => rfl
  | cons c cs ih =>
      have hcode := code_cases c
      have hcons : codes (c :: cs) = units c.toNat ++ codes cs := List.flatMap_cons
      rw [hcons, units, List.map_cons, ← ih]
      by_cases h : c.toNat < 0x10000
      · have hhigh : isHigh c.toNat = false := by simp [isHigh]; omega
        rw [if_pos h, List.singleton_append, joinUnits_single hhigh]
      · have hhigh : isHigh (0xd800 + (c.toNat - 0x10000) / 0x400) = true := by simp [isHigh]; omega
        have hlow : isLow (0xdc00 + (c.toNat - 0x10000) % 0x400) = true := by simp [isLow]; omega
        rw [if_neg h, List.cons_append, List.singleton_append, joinUnits_pair hhigh hlow,
          joinPair_units (Nat.le_of_not_lt h)]

theorem length_le_flatMap {α : Type} {f : α → List Char} (as : List α) (hf : ∀ a ∈ as, f a ≠ []) :
    as.length ≤ (as.flatMap f).length := by
  induction as with
  | nil => exact Nat.le_refl _
  | cons a as ih =>
      have ha := List.length_pos_iff.2 (hf a List.mem_cons_self)
      have has := ih fun b hb => hf b (List.mem_cons_of_mem a hb)
      simp only [List.flatMap_cons, List.length_append, List.length_cons]
      omega

theorem units_length_le (c : Char) : (units c.toNat).length ≤ (escape c).length := by
  unfold escape
  iterate 7
    split
    next h =>
      subst h
      decide
  split
  next h =>
    have hunits : units c.toNat = [c.toNat] := if_pos (by omega)
    rw [hunits]
    exact Nat.le_refl _
  next => exact length_le_flatMap _ fun u _ => List.cons_ne_nil _ _

theorem codes_length_le (cs : List Char) : (codes cs).length ≤ (cs.flatMap escape).length := by
  induction cs with
  | nil => exact Nat.le_refl _
  | cons c cs ih =>
      have hc := units_length_le c
      rw [codes] at ih ⊢
      simp only [List.flatMap_cons, List.length_append]
      omega

theorem readText_quote (s : String) (r : List Char) :
    readText (s.toList.flatMap escape ++ '"' :: r) = .ok (s.toList.map Char.toNat, r) := by
  have hlength := codes_length_le s.toList
  have hfuel : (codes s.toList).length < (s.toList.flatMap escape ++ '"' :: r).length + 1 := by
    rw [List.length_append]
    omega
  rw [readText, readUnits_text hfuel]
  exact congrArg (fun ns => Except.ok (ns, r)) (joinUnits_codes s.toList)

theorem ofCodes_text (s : String) : Data.ofCodes (s.toList.map Char.toNat) = .str s := by
  rw [Data.ofCodes_chars, String.ofList_toList]

theorem toList_quote (s : String) (r : List Char) :
    (quote s).toList ++ r = '"' :: (s.toList.flatMap escape ++ '"' :: r) := by
  rw [quote, String.toList_ofList, List.append_assoc]
  rfl

theorem skip_append (hcs : ∀ d ∈ cs, isSpace d = true) (hc : isSpace c = false) : skip (cs ++ c :: r) = c :: r := by
  rw [skip, List.dropWhile_append_of_pos hcs, List.dropWhile_cons_of_neg (by simp [hc])]

theorem skip_cons (hc : isSpace c = true) : skip (c :: r) = skip r := List.dropWhile_cons_of_pos hc

namespace Layout

inductive Textual : Layout → Prop
  | text (s : String) : Textual (inline (.str s))
  | object {ms : List (String × Layout)} : (∀ m ∈ ms, Textual m.2) → Textual (object ms)

mutual

def weight : Layout → Nat
  | object ms => 1 + weights ms
  | inline _ => 1

def weights : List (String × Layout) → Nat
  | [] => 0
  | (_, l) :: ms => 1 + weight l + weights ms

end

/-- A printed layout is read again, whatever follows it. -/
def IsRead (l : Layout) : Prop := ∀ {margin : String} {fuel : Nat} {r : List Char},
  (∀ c ∈ margin.toList, isSpace c = true) → l.weight ≤ fuel →
    readValue fuel ((l.text margin).toList ++ r) = .ok (l.data, r)

theorem isRead_text (s : String) : IsRead (inline (.str s)) := by
  intro margin fuel r hmargin hfuel
  obtain ⟨k, rfl⟩ : ∃ k, fuel = k + 1 := ⟨fuel - 1, by rw [weight] at hfuel; omega⟩
  rw [text, Data.json, toList_quote, readValue, readText_quote]
  exact congrArg (fun d => Except.ok (d, r)) (ofCodes_text s)

theorem toList_object (margin : String) (ms : List (String × Layout)) (r : List Char) :
    ((object ms).text margin).toList ++ r =
      '\x7b' :: '\n' :: ((memberTexts (margin ++ "  ") ms).toList ++ (margin.toList ++ '\x7d' :: r)) := by
  rw [text]
  simp only [String.toList_append, List.append_assoc]
  rfl

theorem Textual.text_cons {l : Layout} (h : l.Textual) (margin : String) :
    ∃ c cs, (l.text margin).toList = c :: cs ∧ isSpace c = false ∧ c ≠ '\ufeff' := by
  cases h with
  | text s =>
      have hquote := toList_quote s []
      rw [List.append_nil] at hquote
      exact ⟨'"', _, hquote, rfl, by decide⟩
  | @object ms h =>
      have hobject := toList_object margin ms []
      rw [List.append_nil] at hobject
      exact ⟨'\x7b', _, hobject, rfl, by decide⟩

theorem readEntries_quote (fuel : Nat) (k : String) (cs : List Char) :
    readEntries (fuel + 1) ('"' :: (k.toList.flatMap escape ++ '"' :: ':' :: ' ' :: cs)) =
      (readValue fuel (skip (' ' :: cs))).bind fun v => match skip v.2 with
        | ',' :: r => (readEntries fuel (skip r)).map fun p => ((.str k, v.1) :: p.1, p.2)
        | '\x7d' :: r => .ok ([(.str k, v.1)], r)
        | r => fail .comma r := by
  have hcodes := ofCodes_text k
  rw [readEntries, readText_quote, ← hcodes]
  rfl

theorem readEntries_value {text tail : List Char} {d : Data} (hspace : ∃ c cs, text = c :: cs ∧ isSpace c = false)
    (hread : readValue fuel (text ++ tail) = .ok (d, tail)) (k : String) :
    readEntries (fuel + 1) ('"' :: (k.toList.flatMap escape ++ '"' :: ':' :: ' ' :: (text ++ tail))) =
      match skip tail with
      | ',' :: r => (readEntries fuel (skip r)).map fun p => ((.str k, d) :: p.1, p.2)
      | '\x7d' :: r => .ok ([(.str k, d)], r)
      | r => fail .comma r := by
  obtain ⟨c, cs, hcons, hc⟩ := hspace
  have hvalue : skip (' ' :: (text ++ tail)) = text ++ tail := by
    rw [hcons, skip_cons rfl]
    exact List.dropWhile_cons_of_neg (by simp [hc])
  rw [readEntries_quote, hvalue, hread]
  rfl

theorem readEntries_member {l : Layout} (htext : l.Textual) (hread : l.IsRead) {margin : String}
    (hmargin : ∀ c ∈ margin.toList, isSpace c = true) (hfuel : l.weight ≤ fuel) (k : String) (tail : List Char) :
    readEntries (fuel + 1) (skip ((margin ++ quote k ++ ": " ++ text margin l).toList ++ tail)) =
      match skip tail with
      | ',' :: r => (readEntries fuel (skip r)).map fun p => ((.str k, l.data) :: p.1, p.2)
      | '\x7d' :: r => .ok ([(.str k, l.data)], r)
      | r => fail .comma r := by
  obtain ⟨c, cs, hcons, hc, -⟩ := htext.text_cons margin
  have hopen : skip ((margin ++ quote k ++ ": " ++ text margin l).toList ++ tail) =
      '"' :: (k.toList.flatMap escape ++ '"' :: (':' :: ' ' :: ((text margin l).toList ++ tail))) := by
    simp only [String.toList_append, List.append_assoc]
    rw [toList_quote, skip_append hmargin rfl]
    rfl
  rw [hopen, readEntries_value ⟨c, cs, hcons, hc⟩ (hread hmargin hfuel)]

theorem skip_members {margin : String} (hmargin : ∀ c ∈ margin.toList, isSpace c = true) (m : String × Layout)
    (ms : List (String × Layout)) (r : List Char) :
    ∃ cs, skip ((memberTexts margin (m :: ms)).toList ++ r) = '"' :: cs := by
  obtain ⟨k, l⟩ := m
  have hopen (t : String) : ∃ cs, skip ((margin ++ quote k ++ t).toList ++ r) = '"' :: cs := by
    simp only [String.toList_append, List.append_assoc]
    rw [toList_quote, skip_append hmargin rfl]
    exact ⟨_, rfl⟩
  cases ms with
  | nil =>
      rw [memberTexts, String.append_assoc, String.append_assoc]
      exact hopen _
  | cons m ms =>
      rw [memberTexts, String.append_assoc, String.append_assoc, String.append_assoc]
      exact hopen _

theorem readEntries_members {ms : List (String × Layout)} (hms : ∀ m ∈ ms, m.2.Textual ∧ m.2.IsRead) (hne : ms ≠ [])
    {margin closing : String} (hmargin : ∀ c ∈ margin.toList, isSpace c = true)
    (hclosing : ∀ c ∈ closing.toList, isSpace c = true) (hfuel : weights ms ≤ fuel) :
    readEntries fuel (skip ((memberTexts margin ms).toList ++ (closing.toList ++ '\x7d' :: r))) = .ok (entries ms, r) := by
  induction ms generalizing fuel with
  | nil => exact absurd rfl hne
  | cons m ms ih =>
      obtain ⟨k, l⟩ := m
      obtain ⟨⟨htext, hread⟩, hms⟩ := List.forall_mem_cons.1 hms
      rw [weights] at hfuel
      obtain ⟨f, rfl⟩ : ∃ f, fuel = f + 1 := ⟨fuel - 1, by omega⟩
      have hl : l.weight ≤ f := by omega
      have hmember := readEntries_member htext hread hmargin hl k
      cases ms with
      | nil =>
          have htail : skip ('\n' :: (closing.toList ++ '\x7d' :: r)) = '\x7d' :: r := by
            rw [skip_cons rfl, skip_append hclosing rfl]
          have htext : (memberTexts margin [(k, l)]).toList ++ (closing.toList ++ '\x7d' :: r) =
              (margin ++ quote k ++ ": " ++ text margin l).toList ++ '\n' :: (closing.toList ++ '\x7d' :: r) := by
            rw [memberTexts, String.toList_append, List.append_assoc]
            rfl
          rw [htext, hmember, htail]
          rfl
      | cons m ms =>
          have htail : skip (',' :: '\n' :: ((memberTexts margin (m :: ms)).toList ++ (closing.toList ++ '\x7d' :: r))) =
              ',' :: '\n' :: ((memberTexts margin (m :: ms)).toList ++ (closing.toList ++ '\x7d' :: r)) :=
            List.dropWhile_cons_of_neg (by decide)
          have htext : (memberTexts margin ((k, l) :: m :: ms)).toList ++ (closing.toList ++ '\x7d' :: r) =
              (margin ++ quote k ++ ": " ++ text margin l).toList ++ ',' :: '\n' ::
                ((memberTexts margin (m :: ms)).toList ++ (closing.toList ++ '\x7d' :: r)) := by
            rw [memberTexts]
            simp only [String.toList_append, List.append_assoc]
            rfl
          have hfuel' : weights (m :: ms) ≤ f := by omega
          have hbreak : skip ('\n' :: ((memberTexts margin (m :: ms)).toList ++ (closing.toList ++ '\x7d' :: r))) =
              skip ((memberTexts margin (m :: ms)).toList ++ (closing.toList ++ '\x7d' :: r)) := skip_cons rfl
          rw [htext, hmember, htail]
          change (readEntries f (skip ('\n' :: _))).map _ = _
          rw [hbreak, ih hms (List.cons_ne_nil m ms) hfuel']
          rfl

theorem Textual.isRead {l : Layout} (h : l.Textual) : l.IsRead := by
  induction h with
  | text s => exact isRead_text s
  | @object ms hms ih =>
      intro margin fuel r hmargin hfuel
      rw [weight] at hfuel
      obtain ⟨f, rfl⟩ : ∃ f, fuel = f + 1 := ⟨fuel - 1, by omega⟩
      rw [toList_object, readValue]
      cases ms with
      | nil =>
          have hopen : skip ('\n' :: ((memberTexts (margin ++ "  ") []).toList ++ (margin.toList ++ '\x7d' :: r))) =
              '\x7d' :: r := by
            rw [skip_cons rfl]
            exact skip_append hmargin rfl
          rw [hopen]
          rfl
      | cons m ms =>
          have hspaces : ∀ c ∈ (margin ++ "  ").toList, isSpace c = true := by
            rw [String.toList_append]
            exact List.forall_mem_append.2 ⟨hmargin, List.all_eq_true.1 rfl⟩
          have hbreak : skip ('\n' :: ((memberTexts (margin ++ "  ") (m :: ms)).toList ++ (margin.toList ++ '\x7d' :: r))) =
              skip ((memberTexts (margin ++ "  ") (m :: ms)).toList ++ (margin.toList ++ '\x7d' :: r)) := skip_cons rfl
          have hmembers := readEntries_members (r := r) (fun m hm => ⟨hms m hm, ih m hm⟩) (List.cons_ne_nil m ms)
            hspaces hmargin (Nat.le_of_add_le_add_left (Nat.add_comm f 1 ▸ hfuel))
          obtain ⟨cs, hcs⟩ := skip_members hspaces m ms (margin.toList ++ '\x7d' :: r)
          rw [hcs] at hmembers
          rw [hbreak, hcs]
          change (readEntries f ('"' :: cs)).map _ = _
          rw [hmembers]
          rfl

theorem weights_le_length {ms : List (String × Layout)}
    (hms : ∀ m ∈ ms, ∀ margin : String, m.2.weight ≤ (m.2.text margin).toList.length) (margin : String) :
    weights ms ≤ (memberTexts margin ms).toList.length := by
  induction ms with
  | nil => exact Nat.le_refl _
  | cons m ms ih =>
      obtain ⟨k, l⟩ := m
      obtain ⟨hm, hms⟩ := List.forall_mem_cons.1 hms
      have hl : l.weight ≤ (text margin l).toList.length := hm margin
      have hrest := ih hms
      cases ms with
      | nil =>
          simp only [memberTexts, weights, String.toList_append, List.length_append] at hrest ⊢
          have hcolon : (": ").toList.length = 2 := rfl
          omega
      | cons m ms =>
          rw [memberTexts, weights]
          simp only [String.toList_append, List.length_append] at hrest ⊢
          have hcolon : (": ").toList.length = 2 := rfl
          omega

theorem Textual.weight_le_length {l : Layout} (h : l.Textual) (margin : String) :
    l.weight ≤ (l.text margin).toList.length := by
  induction h generalizing margin with
  | text s =>
      obtain ⟨c, cs, hcs, -⟩ := (Textual.text s).text_cons margin
      rw [hcs, weight, List.length_cons]
      omega
  | @object ms hms ih =>
      have hobject := congrArg List.length (toList_object margin ms [])
      have hmembers := weights_le_length ih (margin ++ "  ")
      simp only [List.length_append, List.length_cons, List.length_nil] at hobject
      rw [weight]
      omega

/-- A document that is laid out is read as what it shows. -/
theorem Textual.read_eq {l : Layout} (h : l.Textual) : read (l.text "" ++ "\n") = .ok l.data := by
  obtain ⟨c, cs, hcs, hc, hmark⟩ := h.text_cons ""
  have hweight := h.weight_le_length ""
  have htext : (l.text "" ++ "\n").toList = (l.text "").toList ++ ['\n'] := String.toList_append
  have hskip : skip ((l.text "").toList ++ ['\n']) = (l.text "").toList ++ ['\n'] := by
    rw [hcs]
    exact List.dropWhile_cons_of_neg (by simp [hc])
  have hlength : ((l.text "").toList ++ ['\n']).length + 1 = (l.text "").toList.length + 2 := by
    rw [List.length_append]
    rfl
  have hread : readValue ((l.text "").toList.length + 2) ((l.text "").toList ++ ['\n']) = .ok (l.data, ['\n']) :=
    h.isRead (fun c hc => absurd hc List.not_mem_nil) (by omega)
  rw [read, readWhole, htext, hskip, hlength, hread, if_neg]
  · rfl
  · rw [hcs]
    exact fun h => hmark (Option.some.inj h)

end Layout

end Json

end ApiScaffold
