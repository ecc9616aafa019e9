import ApiScaffold.Field.Mapping
import ApiScaffold.Proofs.Identifier
import ApiScaffold.Proofs.Json
import ApiScaffold.Proofs.TypeScript.Reading

namespace ApiScaffold

open TypeScript Identifier Text

variable {j k : Spot} {n s t : String} {c : Char} {cs ds : List Char}

namespace TypeScript

theorem isInert_numeral (h : c ∈ numerals) : isInert c = true := by
  have hall : ∀ c ∈ numerals, isInert c = true := List.all_eq_true.1 (by decide)
  exact hall c h

def Spot.IsBare : Spot → Prop
  | .start | .clause | .code => True
  | .word _ rest => ∀ c ∈ rest, isPart c = true
  | .quoted _ | .escaped _ => False

theorem isBare_afterCode (hc : isMark c = false) : (Spot.afterCode c).IsBare := by
  unfold Spot.afterCode
  rw [hc]
  split
  next h => cases h
  next => split <;> trivial

namespace Spot.IsBare

theorem next (hk : k.IsBare) (hc : isMark c = false) : (k.next c).IsBare := by
  have hafter := isBare_afterCode hc
  cases k with
  | quoted | escaped => cases hk
  | code => exact hafter
  | clause =>
      rw [Spot.next]
      split
      · trivial
      · exact hafter
  | start =>
      have himport : ∀ c ∈ "mport".toList, isPart c = true := List.all_eq_true.1 (by decide)
      have hexport : ∀ c ∈ "xport".toList, isPart c = true := List.all_eq_true.1 (by decide)
      rw [Spot.next]
      split_ifs
      · trivial
      · exact himport
      · exact hexport
      · exact hafter
  | word w rest =>
      rw [Spot.next]
      split_ifs
      · cases w <;> trivial
      · exact fun d hd => hk d (List.mem_of_mem_tail hd)
      · exact hafter

theorem next_eq_code (hk : k.IsBare) (hc : c ∈ [':', '.', '[']) : k.next c = .code := by
  simp only [List.mem_cons, List.not_mem_nil, or_false] at hc
  have hafter : Spot.afterCode c = .code := by rcases hc with rfl | rfl | rfl <;> rfl
  have hpart : isPart c = false := by rcases hc with rfl | rfl | rfl <;> rfl
  cases k with
  | quoted | escaped => cases hk
  | code => exact hafter
  | clause | start => rcases hc with rfl | rfl | rfl <;> rfl
  | word w rest =>
      have hrest : c ∉ rest := fun hm => by
        rw [hk c hm] at hpart
        cases hpart
      have hword : rest ≠ [c] := fun he => hrest (by simp [he])
      have hhead : rest.head? ≠ some c := fun he => hrest (List.mem_of_head? he)
      rw [Spot.next, if_neg hword, if_neg hhead, hafter]

theorem after?_append (hk : k.IsBare) (hcs : ∀ d ∈ cs, isMark d = false) (hc : c ∈ [':', '.', '[']) (ds : List Char) :
    k.after? (cs ++ c :: ds) = Spot.code.after? ds := by
  have hmark : isMark c = false := by
    simp only [List.mem_cons, List.not_mem_nil, or_false] at hc
    rcases hc with rfl | rfl | rfl <;> rfl
  induction cs generalizing k with
  | nil => rw [List.nil_append, Spot.after?, hmark, Bool.and_false, hk.next_eq_code hc]; rfl
  | cons d cs ih =>
      have hd := hcs d (by simp)
      rw [List.cons_append, Spot.after?, hd, Bool.and_false]
      exact ih (hk.next hd) fun e he => hcs e (by simp [he])

end Spot.IsBare

/-- A text that stays between single quotes. A backslash may stand in it, also at its end. -/
def IsQuotable (t : String) : Prop := ∀ c ∈ t.toList, c ≠ '\'' ∧ isBreak c = false

instance (t : String) : Decidable (IsQuotable t) :=
  List.decidableBAll (fun c => c ≠ '\'' ∧ isBreak c = false) t.toList

def Spot.IsWithin (k : Spot) : Prop := k = .quoted '\'' ∨ k = .escaped '\''

theorem Spot.IsWithin.next {k : Spot} {c : Char} (hk : k.IsWithin) (hc : c ≠ '\'' ∧ isBreak c = false) :
    (k.next c).IsWithin := by
  rcases hk with rfl | rfl
  · rw [Spot.next, beq_eq_false_iff_ne.2 hc.1, hc.2]
    split
    · exact .inr rfl
    · exact .inl rfl
  · exact .inl rfl

theorem Spot.IsWithin.after? {k : Spot} (hk : k.IsWithin) {cs : List Char}
    (h : ∀ c ∈ cs, c ≠ '\'' ∧ isBreak c = false) : ∃ j, k.after? cs = some j ∧ j.IsWithin := by
  induction cs generalizing k with
  | nil => exact ⟨k, rfl, hk⟩
  | cons c cs ih =>
      have hclause : (k == .clause) = false := by rcases hk with rfl | rfl <;> rfl
      rw [Spot.after?, hclause]
      exact ih (hk.next (h c (by simp))) fun d hd => h d (by simp [hd])

theorem IsQuotable.passes_slash {t : String} (h : IsQuotable t) : Passes (.quoted '\'') (t ++ "/") (.quoted '\'') := by
  obtain ⟨j, hj, hwithin⟩ := Spot.IsWithin.after? (.inl rfl) h
  rw [Passes, String.toList_append, Spot.after?_append, hj]
  rcases hwithin with rfl | rfl <;> rfl

variable {ls ms : List String} {l : String}

theorem quiet_indented : Quiet ("  " ++ l) ↔ Quiet l := by
  have hindent : Spot.start.after? "  ".toList = some .start := by decide
  unfold Quiet Passes
  rw [String.append_assoc, String.toList_append, Spot.after?_append, hindent]
  rfl

@[simp] theorem allQuiet_nil : AllQuiet [] := List.forall_mem_nil _

@[simp] theorem allQuiet_cons : AllQuiet (l :: ls) ↔ Quiet l ∧ AllQuiet ls := List.forall_mem_cons

@[simp] theorem allQuiet_append : AllQuiet (ls ++ ms) ↔ AllQuiet ls ∧ AllQuiet ms := List.forall_mem_append

@[simp] theorem allQuiet_indent : AllQuiet (indent ls) ↔ AllQuiet ls := by
  unfold AllQuiet indent
  rw [List.forall_mem_map]
  refine forall₂_congr fun l _ => ?_
  split
  next he => rw [he]
  next => exact quiet_indented

@[simp] theorem allQuiet_chain (head other tail : String) : AllQuiet (chain (head, ls) [(other, ms)] tail) ↔
    Quiet (head ++ " \x7b") ∧ AllQuiet ls ∧ Quiet ("\x7d " ++ other ++ " \x7b") ∧ AllQuiet ms ∧
      Quiet ("\x7d" ++ tail) := by
  simp [chain]

@[simp] theorem allQuiet_block (head tail : String) : AllQuiet (block head ls tail) ↔
    Quiet (head ++ " \x7b") ∧ AllQuiet ls ∧ Quiet ("\x7d" ++ tail) := by
  simp [block, chain]

@[simp] theorem allQuiet_call (head tail : String) : AllQuiet (call head ls tail) ↔
    Quiet (head ++ "(\x7b") ∧ AllQuiet ls ∧ Quiet ("\x7d)" ++ tail) := by
  simp [call]

end TypeScript

namespace Json

theorem isInner_double : (Spot.quoted '"').IsInner := .inr ⟨'"', rfl, rfl⟩

theorem passes_unitEscape (u : Nat) : (Spot.quoted '"').after? (unitEscape u) = some (.quoted '"') := by
  change (Spot.quoted '"').after? (Text.hex 4 u) = some (.quoted '"')
  exact isInner_double.after?_inert fun c hc => isInert_numeral (hex_numerals 4 u hc)

theorem next_printable (hlow : 0x20 ≤ c.toNat) (hquote : c ≠ '"') (hslash : c ≠ '\\') :
    (Spot.quoted '"').next c = .quoted '"' := by
  have hbreak : isBreak c = false := by
    refine Bool.eq_false_iff.2 fun h => ?_
    simp only [isBreak, Bool.or_eq_true, beq_iff_eq] at h
    rcases h with rfl | rfl <;> exact absurd hlow (by decide)
  simp [Spot.next, hquote, hslash, hbreak]

theorem after?_flatMap {α : Type} {f : α → List Char} (hk : ∀ a, k.after? (f a) = some k) (as : List α) :
    k.after? (as.flatMap f) = some k := by
  induction as with
  | nil => rfl
  | cons a as ih => rw [List.flatMap_cons, Spot.after?_append, hk a, Option.bind_some, ih]

theorem after?_escape (c : Char) : (Spot.quoted '"').after? (escape c) = some (.quoted '"') := by
  unfold escape
  split
  next => decide
  next hquote =>
    split
    next => decide
    next hslash =>
      -- the other characters with an escape of their own
      iterate 5
        split
        · decide
      split
      next h => rw [Spot.after?, beq_eq_false_iff_ne.2 (by decide), next_printable h.1 hquote hslash]; rfl
      next => exact after?_flatMap passes_unitEscape _

theorem passes_quote (hk : k = .start ∨ k = .code) (s : String) : Passes k (quote s) .code := by
  have hopen : k.after? ['"'] = some (.quoted '"') := by rcases hk with rfl | rfl <;> rfl
  have hclose : (Spot.quoted '"').after? ['"'] = some .code := rfl
  have hlist : (quote s).toList = ['"'] ++ s.toList.flatMap escape ++ ['"'] := String.toList_ofList
  rw [Passes, hlist, Spot.after?_append, Spot.after?_append, hopen, Option.bind_some,
    after?_flatMap after?_escape, Option.bind_some, hclose]

end Json

theorem Number.passes_text (x : Number) (hk : k.IsInner) : Passes k x.text k :=
  .of_inert (fun _ hc => isInert_numeral (x.text_numerals hc)) hk

namespace Sample

theorem passes_json (v : Sample) : Passes .code v.json .code := by
  cases v with
  | text s => exact Json.passes_quote (.inr rfl) s
  | number x => exact .of_inert (fun _ hc => isInert_numeral (x.json_numerals hc)) Spot.isInner_code
  | yes | nothing => exact .literal .code (by decide)

end Sample

theorem Validator.passes_base (l : FieldKind) : Passes .code (Validator.Base.ofKind l).text .code := by
  cases l <;> exact .literal .code (by decide)

theorem Rule.passes_compile (r : Rule) (l : FieldKind) : Passes .code (r.compile (.ofKind l)).text .code := by
  have hbase := Validator.passes_base l
  unfold compile
  split
  next =>
    split
    next => exact hbase.append (.literal .code (by decide))
    next key x _ =>
      have hnumber := x.passes_text Spot.isInner_code
      split
      · exact ((hbase.append (.literal .code (by decide))).append hnumber).append (.literal .code (by decide))
      · exact ((hbase.append (.literal .code (by decide))).append hnumber).append (.literal .code (by decide))
    next ls _ =>
      have hliterals : ∀ q ∈ ls.map Json.quote, Passes .code q .code := by
        intro q hq
        obtain ⟨l, -, rfl⟩ := List.mem_map.1 hq
        exact Json.passes_quote (.inr rfl) l
      exact ((Passes.literal .code (by decide)).append
        (passes_intercalate hliterals (.literal .code (by decide)))).append (.literal .code (by decide))
    next => exact hbase
    next => exact hbase
  next => exact hbase

namespace Mapping

theorem entryJsons_members (ms : List Mapping) :
    Data.entryJsons (members ms) = ms.map fun m => Json.quote m.name ++ ": " ++ m.sample.json := by
  induction ms with
  | nil => rfl
  | cons m ms ih => exact congrArg (_ :: ·) ih

theorem passes_sampleJson (ms : List Mapping) : Passes .code (sampleJson ms) .start := by
  have hentries : ∀ e ∈ Data.entryJsons (members ms), Passes .code e .code := by
    intro e he
    rw [entryJsons_members] at he
    obtain ⟨m, -, rfl⟩ := List.mem_map.1 he
    exact ((Json.passes_quote (.inr rfl) m.name).append (.literal .code (by decide))).append m.sample.passes_json
  exact ((Passes.literal .code (by decide)).append (passes_intercalate hentries (.literal .code (by decide)))).append
    (.literal .start (by decide))

end Mapping

namespace Identifier

theorem toList_of_isValid (h : isValid n = true) :
    ∃ ps, (∀ c ∈ ps, isPart c = true) ∧ (n.toList = ps ∨ n.toList = ps ++ ['\n']) := by
  obtain ⟨m, e, hm, rfl | rfl, rfl⟩ := exists_identifier_of_isValid h
  · exact ⟨m.toList, hm.parts, .inl (by rw [String.append_empty])⟩
  · exact ⟨m.toList, hm.parts, .inr (by rw [String.toList_append]; rfl)⟩

theorem isMark_part (h : isPart c = true) : isMark c = false := by
  have hinert := isInert_part h
  simp only [isInert, Bool.and_eq_true, Bool.not_eq_true'] at hinert
  exact hinert.1.1.1.1

theorem after?_key (n : String) (ds : List Char) :
    Spot.start.after? ((key n).toList ++ ':' :: ds) = Spot.code.after? ds := by
  unfold key
  split
  next h =>
    have hmarks : ∀ c ∈ n.toList, isMark c = false := by
      obtain ⟨ps, hps, hn⟩ := toList_of_isValid h
      intro c hc
      rcases hn with hn | hn <;> rw [hn] at hc
      · exact isMark_part (hps c hc)
      · rcases List.mem_append.1 hc with hc | hc
        · exact isMark_part (hps c hc)
        · rw [List.mem_singleton.1 hc]; rfl
    exact Spot.IsBare.after?_append (k := .start) trivial hmarks (by simp) ds
  next =>
    rw [Spot.after?_append, Json.passes_quote (.inl rfl) n]
    rfl

theorem after?_member (n : String) (hc : c = ',' ∨ c = ')') (ds : List Char) :
    Spot.code.after? ((member n).toList ++ c :: ds) = Spot.code.after? ds := by
  have hstart : Spot.start.after? (c :: ds) = Spot.code.after? ds := by rcases hc with rfl | rfl <;> rfl
  have hcode : Spot.code.after? (c :: ds) = Spot.code.after? ds := by rcases hc with rfl | rfl <;> rfl
  unfold member
  split
  next h =>
    obtain ⟨ps, hps, hn⟩ := toList_of_isValid h
    -- Behind a name that ends in a line break the reader is at a start.
    have hparts : Spot.code.after? ('.' :: ps) = some .code := Spot.isInner_code.after?_inert
      (List.forall_mem_cons.2 ⟨rfl, fun d hd => isInert_part (hps d hd)⟩)
    rw [String.toList_append]
    rcases hn with hn | hn <;> rw [hn]
    · change Spot.code.after? (('.' :: ps) ++ c :: ds) = _
      rw [Spot.after?_append, hparts]
      exact hcode
    · have hlist : ".".toList ++ (ps ++ ['\n']) ++ c :: ds = ('.' :: ps) ++ '\n' :: c :: ds := by simp
      rw [hlist, Spot.after?_append, hparts]
      exact hstart
  next =>
    have hquoted : Passes .code ("[" ++ Json.quote n ++ "]") .code :=
      ((Passes.literal .code (by decide)).append (Json.passes_quote (.inr rfl) n)).append (.literal .code (by decide))
    rw [Spot.after?_append, hquoted]
    exact hcode

theorem toList_member (n : String) : ∃ c ∈ [':', '.', '['], ∃ cs, (member n).toList = c :: cs := by
  unfold member
  split
  · exact ⟨'.', by simp, n.toList, String.toList_append⟩
  · exact ⟨'[', by simp, (Json.quote n ++ "]").toList, by simp⟩

end Identifier

end ApiScaffold
