import ApiScaffold.Data
import ApiScaffold.Document
import Mathlib.Data.List.Basic

namespace ApiScaffold

namespace Text

variable {n : Nat}

theorem isHalf_toNat (c : Char) : isHalf c.toNat = false := by
  have hvalid : c.toNat < 0xd800 ∨ 0xdfff < c.toNat ∧ c.toNat < 0x110000 := c.valid
  rw [isHalf, Bool.and_eq_false_iff, decide_eq_false_iff_not, decide_eq_false_iff_not]
  omega

theorem isHalf_iff : isHalf n = true ↔ 0xd800 ≤ n ∧ n < 0xe000 := by
  rw [isHalf, Bool.and_eq_true, decide_eq_true_eq, decide_eq_true_eq]

theorem toNat_ofNat (hn : n < 0x110000) (h : isHalf n = false) : (Char.ofNat n).toNat = n := by
  have hvalid : n.isValidChar := by
    rw [← Bool.not_eq_true, isHalf_iff] at h
    unfold Nat.isValidChar
    omega
  rw [Char.ofNat, dif_pos hvalid]
  rfl

theorem toNat_standIn (h : isHalf n = true) : (standIn n).toNat = standInStart + (n - 0xd800) := by
  obtain ⟨hlow, hhigh⟩ := isHalf_iff.1 h
  have hvalid : (standInStart + (n - 0xd800)).isValidChar := by
    unfold Nat.isValidChar standInStart
    omega
  rw [standIn, Char.ofNat, dif_pos hvalid]
  rfl

theorem ofCodes?_chars (cs : List Char) : ofCodes? (cs.map Char.toNat) = some (.ofList cs) := by
  have hany : (cs.map Char.toNat).any isHalf = false := by
    rw [List.any_map, List.any_eq_false]
    intro c _
    rw [Function.comp_apply, isHalf_toNat]
    exact Bool.false_ne_true
  have hchars : (cs.map Char.toNat).map Char.ofNat = cs := by
    rw [List.map_map]
    exact (List.map_congr_left fun c _ => Char.ofNat_toNat c).trans (List.map_id cs)
  rw [ofCodes?, hany, if_neg Bool.false_ne_true, hchars]

end Text

theorem Data.ofCodes_chars (cs : List Char) : ofCodes (cs.map Char.toNat) = .str (.ofList cs) := by
  rw [ofCodes, Text.ofCodes?_chars]

namespace Spelled

open Text

variable {n : Nat} {t : Spelled String}

/-- Every code point of the text is a character. -/
def IsText (t : Spelled String) : Prop := ∀ n ∈ t.codes, isHalf n = false

instance (t : Spelled String) : Decidable t.IsText := inferInstanceAs (Decidable (∀ n ∈ t.codes, isHalf n = false))

theorem code_eq (hn : n < 0x110000) : code (shownCode n) (codedCode n) = n := by
  cases h : isHalf n with
  | false =>
      rw [shownCode, codedCode, h, if_neg Bool.false_ne_true, code, if_neg Bool.false_ne_true, if_pos rfl,
        toNat_ofNat hn h]
  | true =>
      obtain ⟨hlow, hhigh⟩ := isHalf_iff.1 h
      have hstand := toNat_standIn h
      have hne : replacement ≠ standIn n := fun heq => by
        rw [← heq] at hstand
        have hcode : replacement.toNat = 0xfffd := rfl
        rw [hcode, standInStart] at hstand
        omega
      rw [shownCode, codedCode, h, if_pos rfl, if_pos rfl, code, if_neg hne, hstand, standInStart]
      omega

theorem codes_ofCodes {codes : List Nat} (h : ∀ n ∈ codes, n < 0x110000) : (ofCodes codes).codes = codes := by
  induction codes with
  | nil => rfl
  | cons n codes ih =>
      have hrest := ih fun m hm => h m (List.mem_cons_of_mem n hm)
      rw [ofCodes, Spelled.codes, shownCodes, String.toList_ofList, String.toList_ofList] at hrest ⊢
      rw [List.map_cons, List.map_cons, List.zipWith_cons_cons, code_eq (h n List.mem_cons_self), hrest]

theorem isText_plain (s : String) : (plain s).IsText := by
  intro n hn
  obtain ⟨c, -, rfl⟩ := List.mem_map.1 hn
  exact isHalf_toNat c

theorem isText_twice_self (s : String) : (twice s s).IsText := by
  have hcode (c : Char) : code c c = c.toNat := if_pos rfl
  intro n hn
  rw [codes, List.zipWith_self] at hn
  obtain ⟨c, -, rfl⟩ := List.mem_map.1 hn
  rw [hcode]
  exact isHalf_toNat c

/-- Where two spellings stand in a text and before them nothing differs, the code points of the text have theirs. -/
theorem IsText.of_infix {p q s c : String} {before after after' : List Char} (h : (twice s c).IsText)
    (hlength : p.toList.length = q.toList.length) (hs : s.toList = before ++ (p.toList ++ after))
    (hc : c.toList = before ++ (q.toList ++ after')) : (twice p q).IsText := by
  intro n hn
  refine h n ?_
  rw [codes, hs, hc, List.zipWith_append rfl, List.zipWith_append hlength]
  exact List.mem_append_right _ (List.mem_append_left _ hn)

@[simp]
theorem shown_plain {α : Type} (a : α) : (plain a).shown = a := rfl

theorem shown_both {α β : Type} (a : Spelled α) (b : Spelled β) : (a.both b).shown = (a.shown, b.shown) := by
  cases a <;> cases b <;> rfl

theorem coded_both {α β : Type} (a : Spelled α) (b : Spelled β) : (a.both b).coded = (a.coded, b.coded) := by
  cases a <;> cases b <;> rfl

theorem shown_map {α β : Type} (f : α → β) (a : Spelled α) : (a.map f).shown = f a.shown := by cases a <;> rfl

theorem coded_map {α β : Type} (f : α → β) (a : Spelled α) : (a.map f).coded = f a.coded := by cases a <;> rfl

theorem encoded_of_isText (h : t.IsText) : t.encoded = .ok t.shown := by
  cases t with
  | plain s => rfl
  | twice s c =>
      have hnone : (twice s c).codes.findIdx? isHalf = none := List.findIdx?_eq_none_iff.2 h
      rw [encoded, hnone]
      rfl

theorem encoded_of_not_isText (h : ¬t.IsText) : ∃ start codes, t.encoded = .error (.unencodable start codes) := by
  cases t with
  | plain s => exact absurd (isText_plain s) h
  | twice s c =>
      cases hfind : (twice s c).codes.findIdx? isHalf with
      | none => exact absurd (List.findIdx?_eq_none_iff.1 hfind) h
      | some i => exact ⟨i, _, by rw [encoded, hfind]⟩

end Spelled

namespace Draft

variable {α : Type} {ds es : List Document}

theorem shown_pair (ds es : List Document) : (pair ds es).map shown = ds := by
  induction ds generalizing es with
  | nil => rfl
  | cons d ds ih =>
      cases es with
      | nil => rw [pair, List.map_cons, ih]; rfl
      | cons e es => rw [pair, List.map_cons, ih]; rfl

theorem mem_pair_concat {d e : Document} (h : ds.length = es.length) :
    ⟨d.path, .twice d.content e.content⟩ ∈ pair (ds ++ [d]) (es ++ [e]) := by
  induction ds generalizing es with
  | nil =>
      obtain rfl := List.eq_nil_of_length_eq_zero h.symm
      exact List.mem_cons_self
  | cons a ds ih =>
      cases es with
      | nil => cases h
      | cons b es => exact List.mem_cons_of_mem _ (ih (Nat.succ.inj h))

theorem isText_pair_self (ds : List Document) : ∀ d ∈ pair ds ds, d.content.IsText := by
  induction ds with
  | nil => nofun
  | cons d ds ih => exact List.forall_mem_cons.2 ⟨Spelled.isText_twice_self d.content, ih⟩

theorem render_agreed {f : α → Except Failure (List Document)} {a : Spelled α} (h : a.coded = a.shown)
    (hf : f a.shown = .ok ds) :
    ∃ drafts, render f a = .ok drafts ∧ drafts.map shown = ds ∧ ∀ d ∈ drafts, d.content.IsText := by
  cases a with
  | plain a =>
      refine ⟨ds.map ofDocument, ?_, ?_, List.forall_mem_map.2 fun d _ => Spelled.isText_plain d.content⟩
      · rw [render, show f a = .ok ds from hf]
        rfl
      · rw [List.map_map]
        exact List.map_id ds
  | twice a b =>
      obtain rfl : b = a := h
      exact ⟨pair ds ds, by rw [render, show f b = .ok ds from hf]; rfl, shown_pair ds ds, isText_pair_self ds⟩

theorem render_eq_ok {f : α → Except Failure (List Document)} {a : Spelled α} {drafts : List Draft}
    (h : render f a = .ok drafts) : f a.shown = .ok (drafts.map shown) := by
  cases a with
  | plain a =>
      rw [render] at h
      cases hf : f a with
      | error e => rw [hf] at h; cases h
      | ok ds =>
          rw [hf] at h
          cases h
          rw [List.map_map]
          exact hf.trans (congrArg Except.ok (List.map_id ds).symm)
  | twice a b =>
      rw [render] at h
      cases hshown : f a with
      | error e => rw [hshown] at h; cases h
      | ok ds =>
          cases hcoded : f b with
          | error e => rw [hshown, hcoded] at h; cases h
          | ok es =>
              rw [hshown, hcoded] at h
              cases h
              rw [shown_pair]
              exact hshown

end Draft

end ApiScaffold
