import ApiScaffold.Proofs.Field.Accessor
import ApiScaffold.Proofs.Field.Sample
import ApiScaffold.Proofs.Keyed.Blocks
import ApiScaffold.Proofs.TypeScript.Quiet
import ApiScaffold.Proofs.Feature.Lists

namespace ApiScaffold

open Text

namespace TypeScript

/-- Where a reader of an expression stands, so many brackets deep: in code, in a literal, or behind a backslash in
one. -/
inductive Nesting
  | code (depth : Nat)
  | quoted (depth : Nat)
  | escaped (depth : Nat)
  deriving DecidableEq, Repr

namespace Nesting

def next : Nesting → Char → Nesting
  | code n, c =>
    if c = '"' then quoted n
    else if c = '(' ∨ c = '[' ∨ c = '\x7b' then code (n + 1)
    else if c = ')' ∨ c = ']' ∨ c = '\x7d' then code (n - 1)
    else code n
  | quoted n, c => if c = '\\' then escaped n else if c = '"' then code n else quoted n
  | escaped n, _ => quoted n

def pieces (mark : Char) : Nesting → List Char → List (List Char)
  | _, [] => [[]]
  | p, c :: cs =>
    if p = code 0 ∧ c = mark then [] :: pieces mark p cs else (pieces mark (p.next c) cs).modifyHead (c :: ·)

def over? (mark : Char) : Nesting → List Char → Option Nesting
  | p, [] => some p
  | p, c :: cs => if p = code 0 ∧ c = mark then none else over? mark (p.next c) cs

end Nesting

def member? (cs : List Char) : Option (String × String) :=
  match Nesting.pieces ':' (.code 0) cs with
  | [k, v] => (property? (strip k)).map (·, .ofList (strip v))
  | _ => none

/-- The entries of an object, from the text between its braces; a comma may end the last one. -/
def entries? (cs : List Char) : Option (List (String × String)) :=
  let ps := Nesting.pieces ',' (.code 0) cs
  (if ps.getLast?.any fun p => (strip p).isEmpty then ps.dropLast else ps).mapM member?

def schemaBody? (cs : List Char) : Option (List Char) :=
  (stripLead? "z.object(\x7b".toList cs).bind fun r =>
    if "\x7d)".toList <:+ r then some (r.take (r.length - 2)) else none

/-- Whether a body without any property fails the schema of some entries. The last validator of a property counts, and a
missing value passes none but the validator of any value. What is given for `__proto__` makes no property. -/
def demandsAny (es : List (String × String)) : Bool :=
  (Keyed.ofPairs es).any fun e => e.1 != "__proto__" && e.2 != "z.any()"

/-- Whether a body without any property fails a schema, if the schema can be read. No object gives `__proto__` twice. -/
def refusesEmpty? (cs : List Char) : Option Bool :=
  ((schemaBody? cs).bind entries?).bind fun es =>
    if (Keyed.keys es).count "__proto__" ≤ 1 then some (demandsAny es) else none

variable {mark c : Char} {p q : Nesting} {as bs cs : List Char} {s t : String} {n : Nat}

theorem demandsAny_iff {es : List (String × String)} : demandsAny es = true ↔
    ∃ before e after, es = before ++ e :: after ∧ e.1 ≠ "__proto__" ∧ e.2 ≠ "z.any()" ∧ ∀ x ∈ after, x.1 ≠ e.1 := by
  simp only [demandsAny, List.any_eq_true, Bool.and_eq_true, bne_iff_ne, Keyed.mem_ofPairs_iff]
  constructor
  · rintro ⟨e, ⟨before, after, hes, hafter⟩, hproto, hany⟩
    exact ⟨before, e, after, hes, hproto, hany, hafter⟩
  · rintro ⟨before, e, after, hes, hproto, hany, hafter⟩
    exact ⟨e, ⟨before, after, hes, hafter⟩, hproto, hany⟩

namespace Nesting

theorem over?_append (mark : Char) (p : Nesting) (as bs : List Char) :
    over? mark p (as ++ bs) = (over? mark p as).bind fun q => over? mark q bs := by
  induction as generalizing p with
  | nil => rfl
  | cons c as ih =>
      rw [List.cons_append, over?, over?]
      split
      · rfl
      · exact ih _

theorem pieces_append (h : over? mark p as = some q) (bs : List Char) :
    pieces mark p (as ++ bs) = (pieces mark q bs).modifyHead (as ++ ·) := by
  induction as generalizing p with
  | nil =>
      obtain rfl := Option.some.inj h
      exact (congrFun List.modifyHead_id _).symm
  | cons c as ih =>
      rw [over?] at h
      split at h
      · cases h
      next hmark =>
        rw [List.cons_append, pieces, if_neg hmark, ih h, List.modifyHead_modifyHead]
        rfl

end Nesting

def Crosses (mark : Char) (p : Nesting) (s : String) (q : Nesting) : Prop := p.over? mark s.toList = some q

namespace Crosses

theorem append (hs : Crosses mark p s q) {u : Nesting} (ht : Crosses mark q t u) : Crosses mark p (s ++ t) u := by
  rw [Crosses, String.toList_append, Nesting.over?_append, hs]
  exact ht

theorem literal (h : p.over? mark cs = some q) : Crosses mark p (.ofList cs) q := by
  rwa [Crosses, String.toList_ofList]

theorem intercalate {ss : List String} (h : ∀ s ∈ ss, Crosses mark p s p) (ht : Crosses mark p t p) :
    Crosses mark p (t.intercalate ss) p := by
  induction ss with
  | nil => exact literal rfl
  | cons s ss ih =>
      have hs := h s (by simp)
      cases ss with
      | nil => rwa [String.intercalate_singleton]
      | cons u us =>
          rw [String.intercalate_cons_cons]
          exact (hs.append ht).append (ih fun x hx => h x (List.mem_cons_of_mem _ hx))

theorem pieces_mark (h : Crosses mark (.code 0) s (.code 0)) (bs : List Char) :
    Nesting.pieces mark (.code 0) (s.toList ++ mark :: bs) = s.toList :: Nesting.pieces mark (.code 0) bs := by
  rw [Nesting.pieces_append h, Nesting.pieces, if_pos ⟨rfl, rfl⟩, List.modifyHead_cons, List.append_nil]

theorem pieces_end (h : Crosses mark (.code 0) s q) : Nesting.pieces mark (.code 0) s.toList = [s.toList] := by
  have hpieces := Nesting.pieces_append h []
  rwa [List.append_nil, Nesting.pieces, List.modifyHead_cons, List.append_nil] at hpieces

end Crosses

def isFlat (c : Char) : Bool := !(['"', '(', ')', '[', ']', '\x7b', '\x7d', ',', ':'].contains c)

theorem isFlat_part (h : Identifier.isPart c = true) : isFlat c = true :=
  forall_ascii (P := fun c => Identifier.isPart c = true → isFlat c = true) (by decide +kernel) (Feature.part_lt h) h

theorem isFlat_numeral (h : c ∈ numerals) : isFlat c = true := by
  have hall : ∀ c ∈ numerals, isFlat c = true := List.all_eq_true.1 (by decide)
  exact hall c h

def IsSeparator (mark : Char) : Prop := mark = ',' ∨ mark = ':'

theorem Crosses.fixed (hmark : IsSeparator mark) (hcomma : p.over? ',' cs = some q) (hcolon : p.over? ':' cs = some q) :
    Crosses mark p (.ofList cs) q := by
  rcases hmark with rfl | rfl
  · exact .literal hcomma
  · exact .literal hcolon

theorem Nesting.next_flat (hc : isFlat c = true) : Nesting.next (.code n) c = .code n := by
  have hmarks : c ≠ '"' ∧ ¬(c = '(' ∨ c = '[' ∨ c = '\x7b') ∧ ¬(c = ')' ∨ c = ']' ∨ c = '\x7d') := by
    refine ⟨?_, ?_, ?_⟩
    · rintro rfl
      cases hc
    · rintro (rfl | rfl | rfl) <;> cases hc
    · rintro (rfl | rfl | rfl) <;> cases hc
  rw [Nesting.next, if_neg hmarks.1, if_neg hmarks.2.1, if_neg hmarks.2.2]

theorem over?_flat (hmark : IsSeparator mark) (h : ∀ c ∈ cs, isFlat c = true) :
    Nesting.over? mark (.code n) cs = some (.code n) := by
  induction cs with
  | nil => rfl
  | cons c cs ih =>
      obtain ⟨hc, hrest⟩ := List.forall_mem_cons.1 h
      have hne : c ≠ mark := by
        rintro rfl
        rcases hmark with rfl | rfl <;> cases hc
      rw [Nesting.over?, if_neg (hne ·.2), Nesting.next_flat hc]
      exact ih hrest

theorem Crosses.flat (hmark : IsSeparator mark) (h : ∀ c ∈ s.toList, isFlat c = true) :
    Crosses mark (.code n) s (.code n) := over?_flat hmark h

theorem over?_quoted (hquote : '"' ∉ cs) (hslash : '\\' ∉ cs) :
    Nesting.over? mark (.quoted n) cs = some (.quoted n) := by
  induction cs with
  | nil => rfl
  | cons c cs ih =>
      obtain ⟨hquote, hquotes⟩ := not_or.1 (List.mem_cons.not.1 hquote)
      obtain ⟨hslash, hslashes⟩ := not_or.1 (List.mem_cons.not.1 hslash)
      have hnext : Nesting.next (.quoted n) c = .quoted n := by
        rw [Nesting.next, if_neg (Ne.symm hslash), if_neg (Ne.symm hquote)]
      rw [Nesting.over?, if_neg (by simp), hnext]
      exact ih hquotes hslashes

theorem over?_unitEscape (u : Nat) : Nesting.over? mark (.quoted n) (Json.unitEscape u) = some (.quoted n) := by
  have hquote : '"' ∉ hex 4 u := fun hm => absurd (hex_numerals 4 u hm) (by decide)
  have hslash : '\\' ∉ hex 4 u := fun hm => absurd (hex_numerals 4 u hm) (by decide)
  have hrest : Nesting.over? mark (.quoted n) (hex 4 u) = some (.quoted n) := over?_quoted hquote hslash
  simpa [Json.unitEscape, Nesting.over?, Nesting.next] using hrest

theorem over?_flatMap {α : Type} {f : α → List Char} (h : ∀ a, p.over? mark (f a) = some p) (as : List α) :
    p.over? mark (as.flatMap f) = some p := by
  induction as with
  | nil => rfl
  | cons a as ih => rw [List.flatMap_cons, Nesting.over?_append, h a, Option.bind_some, ih]

theorem over?_escape (c : Char) : Nesting.over? mark (.quoted n) (Json.escape c) = some (.quoted n) := by
  unfold Json.escape
  split
  next => rfl
  next hquote =>
    split
    next => rfl
    next hslash =>
      -- the other characters with an escape of their own
      iterate 5
        split
        · rfl
      split
      · exact over?_quoted (List.mem_singleton.not.2 (Ne.symm hquote)) (List.mem_singleton.not.2 (Ne.symm hslash))
      · exact over?_flatMap over?_unitEscape _

theorem Crosses.quote (hmark : IsSeparator mark) (s : String) : Crosses mark (.code n) (Json.quote s) (.code n) := by
  have hopen : Nesting.over? mark (.code n) ['"'] = some (.quoted n) := by
    have hne : '"' ≠ mark := by rcases hmark with rfl | rfl <;> decide
    simp [Nesting.over?, Nesting.next, hne]
  have hclose : Nesting.over? mark (.quoted n) ['"'] = some (.code n) := rfl
  have hlist : (Json.quote s).toList = ['"'] ++ s.toList.flatMap Json.escape ++ ['"'] := String.toList_ofList
  rw [Crosses, hlist, Nesting.over?_append, Nesting.over?_append, hopen, Option.bind_some,
    over?_flatMap over?_escape, Option.bind_some, hclose]

theorem Crosses.key (hmark : IsSeparator mark) (k : String) : Crosses mark (.code n) (Identifier.key k) (.code n) := by
  unfold Identifier.key
  split
  next h =>
    obtain ⟨ps, hps, hk⟩ := Identifier.toList_of_isValid h
    have hparts : ∀ c ∈ ps, isFlat c = true := fun c hc => isFlat_part (hps c hc)
    refine .flat hmark ?_
    rcases hk with hk | hk
    · rwa [hk]
    · rw [hk, List.forall_mem_append]
      exact ⟨hparts, List.forall_mem_singleton.2 rfl⟩
  next => exact .quote hmark k

end TypeScript

open TypeScript

namespace Rule

variable {mark : Char}

theorem crosses_base (hmark : IsSeparator mark) (k : FieldKind) :
    Crosses mark (.code 0) (Validator.Base.ofKind k).text (.code 0) := by
  cases k <;> exact .fixed hmark rfl rfl

theorem text_compile_cases (r : Rule) (k : FieldKind) :
    (r.compile (.ofKind k)).text = (Validator.Base.ofKind k).text ∨
      (∃ opening ∈ [".email(", ".min(", ".max("], ∃ argument : String, argument.toList ⊆ numerals ∧
        (r.compile (.ofKind k)).text = (Validator.Base.ofKind k).text ++ opening ++ argument ++ ")") ∨
      ∃ ls, (r.compile (.ofKind k)).text = Validator.enumText ls := by
  unfold compile
  split
  next =>
    split
    next =>
      refine .inr (.inl ⟨".email(", by simp, "", List.nil_subset _, ?_⟩)
      rw [String.append_empty, String.append_assoc]
      rfl
    next key x _ =>
      split
      · exact .inr (.inl ⟨".min(", by simp, x.text, x.text_numerals, rfl⟩)
      · exact .inr (.inl ⟨".max(", by simp, x.text, x.text_numerals, rfl⟩)
    next ls _ => exact .inr (.inr ⟨ls, rfl⟩)
    next => exact .inl rfl
    next => exact .inl rfl
  next => exact .inl rfl

/-- No mark of a key or of an entry is in a validator, but for those between brackets or in a literal. -/
theorem crosses_compile (hmark : IsSeparator mark) (r : Rule) (k : FieldKind) :
    Crosses mark (.code 0) (r.compile (.ofKind k)).text (.code 0) := by
  have hbase := crosses_base hmark k
  rcases r.text_compile_cases k with h | ⟨opening, hopening, argument, hnumerals, h⟩ | ⟨ls, h⟩ <;> rw [h]
  · exact hbase
  · have hopen : Crosses mark (.code 0) opening (.code 1) := by
      simp only [List.mem_cons, List.not_mem_nil, or_false] at hopening
      rcases hopening with rfl | rfl | rfl <;> exact .fixed hmark rfl rfl
    have hargument : Crosses mark (.code 1) argument (.code 1) :=
      .flat hmark fun c hc => isFlat_numeral (hnumerals hc)
    have hclose : Crosses mark (.code 1) ")" (.code 0) := .fixed hmark rfl rfl
    exact ((hbase.append hopen).append hargument).append hclose
  · have hliterals : ∀ q ∈ ls.map Json.quote, Crosses mark (.code 2) q (.code 2) := by
      intro q hq
      obtain ⟨l, -, rfl⟩ := List.mem_map.1 hq
      exact .quote hmark l
    have hopen : Crosses mark (.code 0) "z.enum([" (.code 2) := .fixed hmark rfl rfl
    have hcomma : Crosses mark (.code 2) ", " (.code 2) := .fixed hmark rfl rfl
    have hclose : Crosses mark (.code 2) "])" (.code 0) := .fixed hmark rfl rfl
    exact (hopen.append (.intercalate hliterals hcomma)).append hclose

end Rule

namespace Identifier

/-- The property that the key of a name gives. No property has the line break that may end a key. -/
def denoted (n : String) : String := if isValid n then trim n else n

theorem denoted_eq_self {n : String} (h : '\n' ∉ n.toList.getLast?) : denoted n = n := by
  unfold denoted
  split
  next hvalid =>
    have husable := (isValid_iff_of_unbroken h).1 hvalid
    have htrimmed : IsTrimmed n.toList := isTrimmed_of_forall husable.isIdentifier.isName.isWord
    rw [trim, htrimmed.strip_eq, String.ofList_toList]
  next => rfl

theorem property?_between {as : List Char} (ha : ∀ c ∈ as, isBlank c = true) (n : String) :
    property? (strip (as ++ (key n).toList)) = some (denoted n) := by
  have hnil : ∀ c ∈ ([] : List Char), isBlank c = true := List.forall_mem_nil _
  unfold key denoted
  split
  next h =>
    obtain ⟨m, e, hm, he, rfl⟩ := exists_identifier_of_isValid h
    have hblank : ∀ c ∈ e.toList, isBlank c = true := by
      rcases he with rfl | rfl
      · exact List.forall_mem_nil _
      · exact List.all_eq_true.1 (by decide)
    have htrimmed : IsTrimmed m.toList := isTrimmed_of_forall hm.isName.isWord
    have hself : strip (m.toList ++ e.toList) = m.toList := strip_between hnil hblank htrimmed
    rw [trim, String.toList_append, hself, String.ofList_toList, ← List.append_assoc,
      strip_between ha hblank htrimmed]
    exact property?_eq_some hm
  next =>
    have hmark : IsTrimmed ['"'] := by decide
    have htrimmed : IsTrimmed (Json.quote n).toList := by
      rw [Json.quote, String.toList_ofList]
      exact hmark.around hmark (by simp) (by simp) _
    have hself := strip_between ha hnil htrimmed
    rw [List.append_nil] at hself
    rw [hself]
    exact property?_quote n

end Identifier

namespace Rule

theorem isTrimmed_compile (r : Rule) (k : FieldKind) : IsTrimmed (r.compile (.ofKind k)).text.toList := by
  have hends {s t : String} (hs : IsTrimmed s.toList ∧ s ≠ "") (ht : IsTrimmed t.toList ∧ t ≠ "") (u : String) :
      IsTrimmed (s ++ u ++ t).toList := by
    rw [String.toList_append, String.toList_append]
    exact hs.1.around ht.1 (by simpa using hs.2) (by simpa using ht.2) _
  have hbase : IsTrimmed (Validator.Base.ofKind k).text.toList ∧ (Validator.Base.ofKind k).text ≠ "" := by
    cases k <;> decide
  rcases r.text_compile_cases k with h | ⟨opening, -, argument, -, h⟩ | ⟨ls, h⟩ <;> rw [h]
  · exact hbase.1
  · have hrefined := hends hbase (t := ")") (by decide) (opening ++ argument)
    rwa [← String.append_assoc] at hrefined
  · exact hends (by decide) (by decide) _

end Rule

namespace Mapping

variable {m : Mapping} {ms : List Mapping}

def schemaLine (m : Mapping) : String := "  " ++ m.key ++ ": " ++ m.validator.text ++ ","

def entryText (m : Mapping) : String := "\n  " ++ m.key ++ ": " ++ m.validator.text

def entry (m : Mapping) : String × String := (Identifier.denoted m.name, m.validator.text)

def schemaRest (ms : List Mapping) : List Char := '\n' :: (linesText (ms.map schemaLine)).toList

theorem schemaRest_cons (m : Mapping) (ms : List Mapping) :
    schemaRest (m :: ms) = m.entryText.toList ++ ',' :: schemaRest ms := by
  simp [schemaRest, schemaLine, entryText, linesText_cons]

theorem crosses_validator (hm : ∃ f, ofField f = .ok m) {mark : Char} (hmark : IsSeparator mark) :
    Crosses mark (.code 0) m.validator.text (.code 0) := by
  obtain ⟨f, hf⟩ := hm
  rw [(ofField_ok hf).2.2.2.2]
  exact m.rule.crosses_compile hmark _

theorem crosses_key (m : Mapping) {mark : Char} (hmark : IsSeparator mark) :
    Crosses mark (.code 0) ("\n  " ++ m.key) (.code 0) :=
  Crosses.append (.fixed hmark rfl rfl) (.key hmark m.name)

theorem member?_entryText (hm : ∃ f, ofField f = .ok m) : member? m.entryText.toList = some m.entry := by
  have hcolon : IsSeparator ':' := .inr rfl
  have hvalue : Crosses ':' (.code 0) (" " ++ m.validator.text) (.code 0) :=
    Crosses.append (.fixed hcolon rfl rfl) (crosses_validator hm hcolon)
  have hlist : m.entryText.toList = ("\n  " ++ m.key).toList ++ ':' :: (" " ++ m.validator.text).toList := by
    simp [entryText]
  have hkey : property? (strip ("\n  " ++ m.key).toList) = some (Identifier.denoted m.name) := by
    rw [String.toList_append]
    exact Identifier.property?_between (List.all_eq_true.1 (by decide)) m.name
  have hvalidator : strip (" " ++ m.validator.text).toList = m.validator.text.toList := by
    obtain ⟨f, hf⟩ := hm
    rw [(ofField_ok hf).2.2.2.2, String.toList_append]
    have hspace : ∀ c ∈ " ".toList, isBlank c = true := List.forall_mem_singleton.2 rfl
    have hstrip := strip_between hspace (List.forall_mem_nil _) (m.rule.isTrimmed_compile (.ofToken f.typeName))
    rwa [List.append_nil] at hstrip
  rw [member?, hlist, (crosses_key m hcolon).pieces_mark, hvalue.pieces_end]
  change (property? (strip ("\n  " ++ m.key).toList)).map _ = _
  rw [hkey, hvalidator, String.ofList_toList]
  rfl

theorem pieces_schemaRest (h : ∀ m ∈ ms, ∃ f, ofField f = .ok m) :
    Nesting.pieces ',' (.code 0) (schemaRest ms) =
      ms.map (fun m => m.entryText.toList) ++ [['\n']] := by
  have hcomma : IsSeparator ',' := .inl rfl
  induction ms with
  | nil => rfl
  | cons m ms ih =>
      obtain ⟨hm, hms⟩ := List.forall_mem_cons.1 h
      have hcolon : Crosses ',' (.code 0) ": " (.code 0) := .literal (by decide)
      have hentry : Crosses ',' (.code 0) m.entryText (.code 0) :=
        ((crosses_key m hcomma).append hcolon).append (crosses_validator hm hcomma)
      rw [schemaRest_cons, hentry.pieces_mark, ih hms, List.map_cons, List.cons_append]

theorem entries?_schemaRest (h : ∀ m ∈ ms, ∃ f, ofField f = .ok m) :
    entries? (schemaRest ms) = some (ms.map entry) := by
  have hlast : (ms.map (fun m => m.entryText.toList) ++ [['\n']]).getLast?.any (fun p => (strip p).isEmpty) =
      true := by
    rw [List.getLast?_concat]
    rfl
  rw [entries?, pieces_schemaRest h]
  simp only [hlast, if_true, List.dropLast_concat]
  clear hlast
  induction ms with
  | nil => rfl
  | cons m ms ih =>
      obtain ⟨hm, hms⟩ := List.forall_mem_cons.1 h
      rw [List.map_cons, List.mapM_cons, member?_entryText hm, ih hms]
      rfl

theorem schemaBody?_schema (ms : List Mapping) : schemaBody? (schema "  " ms).toList = some (schemaRest ms) := by
  have hlist : (schema "  " ms).toList = "z.object(\x7b".toList ++ (schemaRest ms ++ "\x7d)".toList) := by
    rw [FeatureDocument.schema_eq, linesText_cons]
    change (_ ++ _ ++ linesText (ms.map schemaLine) ++ _).toList = _
    simp [schemaRest]
  have hlength : (schemaRest ms ++ "\x7d)".toList).length - 2 = (schemaRest ms).length := by simp
  rw [schemaBody?, hlist, stripLead?_append, Option.bind_some, if_pos (List.suffix_append _ _), hlength,
    List.take_left]

/-- A schema is read as what its fields give, in their order. -/
theorem refusesEmpty?_schema (h : ∀ m ∈ ms, ∃ f, ofField f = .ok m) : refusesEmpty? (schema "  " ms).toList =
    if (ms.map fun m => Identifier.denoted m.name).count "__proto__" ≤ 1 then some (demandsAny (ms.map entry))
    else none := by
  have hkeys : Keyed.keys (ms.map entry) = ms.map fun m => Identifier.denoted m.name := List.map_map
  rw [refusesEmpty?, schemaBody?_schema, Option.bind_some, entries?_schemaRest h, Option.bind_some, hkeys]

end Mapping

end ApiScaffold
