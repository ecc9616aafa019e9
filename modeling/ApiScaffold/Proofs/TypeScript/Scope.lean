import ApiScaffold.Proofs.TypeScript.Reading

namespace ApiScaffold.TypeScript

open Identifier Text

/-- Where a reader stands: between statements, in code or in a literal. -/
inductive Place
  | start
  | code
  | quoted (mark : Char)
  | escaped (mark : Char)
  deriving DecidableEq, Repr

namespace Place

def afterCode (c : Char) : Place :=
  if isMark c then quoted c
  else if c == ';' || c == '\x7d' || isBreak c then start
  else code

def next : Place → Char → Place
  | start, c => if c == ' ' || c == '\t' then start else afterCode c
  | code, c => afterCode c
  | quoted mark, c =>
    if c == '\\' then escaped mark
    else if c == mark then code
    else if isBreak c && mark != '\x60' then start
    else quoted mark
  | escaped mark, _ => quoted mark

def isLiteral : Place → Bool
  | quoted _ | escaped _ => true
  | start | code => false

end Place

/-- A reader of the names that a module binds, so many braces deep. -/
structure Reader where
  place : Place
  depth : Nat
  deriving DecidableEq, Repr

def leadingName (cs : List Char) : List String := [String.ofList ((stripStart cs).takeWhile isPart)].filter (· ≠ "")

def importedNames (cs : List Char) : List String :=
  leadingName (cs.takeWhile isClause) ++ bracedNames (cs.takeWhile isClause)

/-- The names that a statement binds, from the text that begins with it. -/
def statementNames (cs : List Char) : List String :=
  let word := cs.takeWhile isPart
  let rest := cs.dropWhile isPart
  if word = "import".toList then importedNames rest
  else if word = "export".toList then (declaredName? (stripStart rest)).toList
  else (declaredName? cs).toList

namespace Reader

def next (r : Reader) (c : Char) : Reader where
  place := r.place.next c
  depth :=
    if r.place.isLiteral then r.depth
    else if c = '\x7b' then r.depth + 1
    else if c = '\x7d' then r.depth - 1
    else r.depth

def atTop (r : Reader) : Bool := r.place == .start && r.depth == 0

def names : Reader → List Char → List String
  | _, [] => []
  | r, c :: cs => (if r.atTop then statementNames (c :: cs) else []) ++ names (r.next c) cs

/-- Where the reader stands after a text in which no statement of the module begins and no brace is closed too often. -/
def after? : Reader → List Char → Option Reader
  | r, [] => some r
  | r, c :: cs =>
    if (r.atTop && isPart c) || (!r.place.isLiteral && c == '\x7d' && r.depth == 0) then none
    else after? (r.next c) cs

def finish (r : Reader) (cs : List Char) : Reader := cs.foldl next r

end Reader

/-- The names that a source text binds at its top. -/
def boundNames (text : String) : List String := Reader.names ⟨.start, 0⟩ text.toList

variable {q r : Reader} {p : Place} {n m : Nat} {c : Char} {cs as bs : List Char} {s t : String} {ns ms : List String}

theorem statementNames_of_not_part (h : isPart c = false) : statementNames (c :: cs) = [] := by
  have htake : (c :: cs).takeWhile isPart = [] := List.takeWhile_cons_of_neg (by simp [h])
  have hkeyword : (Keyword.all.any fun k => k.text.toList == []) = false := rfl
  rw [statementNames, htake, if_neg (by decide), if_neg (by decide), declaredName?, htake, hkeyword]
  rfl

namespace Reader

theorem after?_append (r : Reader) (as bs : List Char) :
    r.after? (as ++ bs) = (r.after? as).bind fun q => q.after? bs := by
  induction as generalizing r with
  | nil => rfl
  | cons c as ih =>
      rw [List.cons_append, after?, after?]
      split
      · rfl
      · exact ih _

theorem names_of_after? (h : r.after? as = some q) (bs : List Char) : r.names (as ++ bs) = q.names bs := by
  induction as generalizing r with
  | nil => rw [Option.some.inj h]; rfl
  | cons c as ih =>
      rw [after?] at h
      split at h
      next => cases h
      next hgo =>
        rw [List.cons_append, names, ih h]
        split
        next htop =>
          have hpart : isPart c = false := by
            simp only [htop, Bool.true_and, Bool.or_eq_true, not_or, Bool.not_eq_true] at hgo
            exact hgo.1
          rw [statementNames_of_not_part hpart]
          rfl
        next => rfl

theorem finish_of_after? (h : (r.after? cs).isSome) : r.after? cs = some (r.finish cs) := by
  induction cs generalizing r with
  | nil => rfl
  | cons c cs ih =>
      rw [after?] at h ⊢
      split at h
      next => cases h
      next hgo =>
        rw [if_neg hgo, finish, List.foldl_cons]
        exact ih h

end Reader

/-- The reader goes over the text from `r` to `q`, and the text binds no name of the module. -/
def Goes (r : Reader) (s : String) (q : Reader) : Prop := r.after? s.toList = some q

def isSmooth (c : Char) : Bool := isInert c && c != '\x7b'

def AllSmooth (s : String) : Prop := ∀ c ∈ s.toList, isSmooth c = true

theorem AllSmooth.allInert (h : AllSmooth s) : AllInert s := fun c hc => (Bool.and_eq_true_iff.1 (h c hc)).1

theorem AllSmooth.append (hs : AllSmooth s) (ht : AllSmooth t) : AllSmooth (s ++ t) := by
  rw [AllSmooth, String.toList_append, List.forall_mem_append]
  exact ⟨hs, ht⟩

theorem AllSmooth.literal (h : cs.all isSmooth = true) : AllSmooth (.ofList cs) := by
  rw [AllSmooth, String.toList_ofList]
  exact List.all_eq_true.1 h

namespace Goes

theorem append (hs : Goes r s q) {u : Reader} (ht : Goes q t u) : Goes r (s ++ t) u := by
  rw [Goes, String.toList_append, Reader.after?_append, hs]
  exact ht

theorem literal (h : (r.after? cs).isSome) : Goes r (.ofList cs) (r.finish cs) := by
  rw [Goes, String.toList_ofList]
  exact Reader.finish_of_after? h

theorem last (h : r.after? cs = some q) : Goes r (.ofList cs) q := by
  rwa [Goes, String.toList_ofList]

theorem of_eq (h : Goes r s q) {u : Reader} (hu : u = r) : Goes u s q := hu ▸ h

end Goes

def Place.isInner : Place → Bool
  | .code => true
  | .quoted m => isMark m
  | .start | .escaped _ => false

theorem Reader.next_inert (hr : r.place.isInner = true) (hc : isInert c = true)
    (hopen : c = '\x7b' → r.place.isLiteral = true) : r.next c = r := by
  simp only [isInert, Bool.and_eq_true, Bool.not_eq_true', bne_iff_ne] at hc
  obtain ⟨⟨⟨⟨hmark, hbreak⟩, hsemicolon⟩, hclose⟩, hslash⟩ := hc
  obtain ⟨place, depth⟩ := r
  cases place with
  | start | escaped => cases hr
  | code =>
      have hne : c ≠ '\x7b' := fun he => Bool.false_ne_true (hopen he)
      simp [next, Place.next, Place.afterCode, hmark, hbreak, hsemicolon, hclose, hne]
  | quoted m =>
      have hne : c ≠ m := by
        rintro rfl
        rw [Place.isInner, hmark] at hr
        cases hr
      simp [next, Place.next, Place.isLiteral, hne, hslash, hbreak]

theorem Reader.after?_inert (hr : r.place.isInner = true) (hc : isInert c = true)
    (hopen : c = '\x7b' → r.place.isLiteral = true) (cs : List Char) : r.after? (c :: cs) = r.after? cs := by
  have htop : r.atTop = false := by
    obtain ⟨place, depth⟩ := r
    cases place <;> first | rfl | cases hr
  have hclose : (c == '\x7d') = false := by
    refine beq_eq_false_iff_ne.2 fun he => ?_
    rw [he] at hc
    cases hc
  rw [after?, htop, hclose, next_inert hr hc hopen]
  simp

namespace Goes

theorem inert (hr : r.place.isInner = true) (h : AllInert s) (hopen : '\x7b' ∈ s.toList → r.place.isLiteral = true) :
    Goes r s r := by
  have hgo : ∀ cs : List Char, (∀ c ∈ cs, isInert c = true) → ('\x7b' ∈ cs → r.place.isLiteral = true) →
      r.after? cs = some r := by
    intro cs hcs hin
    induction cs with
    | nil => rfl
    | cons c cs ih =>
        rw [Reader.after?_inert hr (hcs c (by simp)) fun he => hin (by simp [he])]
        exact ih (fun d hd => hcs d (by simp [hd])) fun hd => hin (by simp [hd])
  exact hgo _ h hopen

theorem smooth (hr : r.place.isInner = true) (h : AllSmooth s) : Goes r s r :=
  .inert hr h.allInert fun hopen => absurd (h _ hopen) (by decide)

end Goes

theorem isSmooth_part (h : isPart c = true) : isSmooth c = true :=
  forall_ascii (P := fun c => isPart c = true → isSmooth c = true) (by decide +kernel) (Feature.part_lt h) h

theorem next_part (h : isPart c = true) : Reader.next ⟨.start, 0⟩ c = ⟨.code, 0⟩ :=
  forall_ascii (P := fun c => isPart c = true → Reader.next ⟨.start, 0⟩ c = ⟨.code, 0⟩) (by decide +kernel)
    (Feature.part_lt h) h

theorem IsBinding.allSmooth {n : String} (h : IsBinding n) : AllSmooth n := fun c hc => isSmooth_part (h.parts c hc)

/-- A line from one statement to the next, at the one depth and the other. -/
def Line (n : Nat) (l : String) (m : Nat) : Prop := Goes ⟨.start, n⟩ (l ++ "\n") ⟨.start, m⟩

inductive Rows : Nat → List String → Nat → Prop
  | nil (n : Nat) : Rows n [] n
  | cons {n k m : Nat} {l : String} {ls : List String} (hl : Line n l k) (hs : Rows k ls m) : Rows n (l :: ls) m

def Stays (n : Nat) (ls : List String) : Prop := Rows n ls n

variable {k : Nat} {l head other tail : String} {ls ls' : List String}

theorem block_eq (head : String) (ls : List String) (tail : String) :
    block head ls tail = (head ++ " \x7b") :: (indent ls ++ ["\x7d" ++ tail]) := by
  simp [block, chain]

theorem prefix_append (h : cs <+: s.toList) (t : String) : cs <+: (s ++ t).toList := by
  rw [String.toList_append]
  exact h.trans (List.prefix_append _ _)

theorem Line.indent (h : Line n l m) : Line n ("  " ++ l) m := by
  have hblanks : Reader.after? ⟨.start, n⟩ "  ".toList = some ⟨.start, n⟩ := by
    simp [Reader.after?, Reader.next, Place.next, Place.isLiteral, isPart, isStart]
  rw [Line, String.append_assoc]
  exact .append hblanks h

namespace Rows

theorem append (h : Rows n ls k) (h' : Rows k ls' m) : Rows n (ls ++ ls') m := by
  induction h with
  | nil => exact h'
  | cons hl _ ih => exact .cons hl (ih h')

theorem indent (h : Rows n ls m) : Rows n (indent ls) m := by
  induction h with
  | nil => exact .nil _
  | @cons _ _ _ l _ hl _ ih =>
      refine .cons (l := if l = "" then "" else "  " ++ l) ?_ ih
      split
      next he => rwa [← he]
      next => exact hl.indent

theorem goes (h : Rows n ls m) : Goes ⟨.start, n⟩ (linesText ls) ⟨.start, m⟩ := by
  induction h with
  | nil => exact rfl
  | cons hl _ ih =>
      rw [linesText_cons]
      exact .append hl ih

end Rows

namespace Stays

theorem nil (n : Nat) : Stays n [] := Rows.nil n

theorem cons (hl : Line n l n) (hs : Stays n ls) : Stays n (l :: ls) := Rows.cons hl hs

theorem append (h : Stays n ls) (h' : Stays n ls') : Stays n (ls ++ ls') := Rows.append h h'

theorem indent (h : Stays n ls) : Stays n (indent ls) := Rows.indent h

theorem chain (hhead : Line n (head ++ " \x7b") (n + 1)) (hs : Stays (n + 1) ls)
    (hother : Line (n + 1) ("\x7d " ++ other ++ " \x7b") (n + 1)) (hs' : Stays (n + 1) ls')
    (htail : Line (n + 1) ("\x7d" ++ tail) n) : Stays n (chain (head, ls) [(other, ls')] tail) := by
  have hlines : TypeScript.chain (head, ls) [(other, ls')] tail = (head ++ " \x7b") :: (TypeScript.indent ls ++
      (("\x7d " ++ other ++ " \x7b") :: (TypeScript.indent ls' ++ ["\x7d" ++ tail]))) := by
    simp [TypeScript.chain]
  rw [hlines]
  exact Rows.cons hhead (Rows.append hs.indent (.cons hother (Rows.append hs'.indent (.cons htail (.nil n)))))

theorem block (hhead : Line n (head ++ " \x7b") (n + 1)) (hs : Stays (n + 1) ls)
    (htail : Line (n + 1) ("\x7d" ++ tail) n) : Stays n (block head ls tail) := by
  rw [block_eq]
  exact Rows.cons hhead (Rows.append hs.indent (.cons htail (.nil n)))

theorem call (hhead : Line n (head ++ "(\x7b") (n + 1)) (hs : Stays (n + 1) ls)
    (htail : Line (n + 1) ("\x7d)" ++ tail) n) : Stays n (call head ls tail) :=
  Rows.cons hhead (Rows.append hs.indent (.cons htail (.nil n)))

theorem ite {b : Bool} (h : Stays n ls) : Stays n (if b then ls else []) := by
  cases b with
  | true => exact h
  | false => exact .nil n

theorem map {α : Type} {as : List α} {line : α → String} (h : ∀ a ∈ as, Line n (line a) n) : Stays n (as.map line) := by
  induction as with
  | nil => exact .nil n
  | cons a as ih => exact .cons (h a (by simp)) (ih fun b hb => h b (by simp [hb]))

end Stays

/-- At the top of a module the text binds the names, whatever follows it. -/
def Binds (ns : List String) (s : String) : Prop :=
  ∀ bs, Reader.names ⟨.start, 0⟩ (s.toList ++ bs) = ns ++ Reader.names ⟨.start, 0⟩ bs

namespace Binds

theorem of_goes (h : Goes ⟨.start, 0⟩ s ⟨.start, 0⟩) : Binds [] s := Reader.names_of_after? h

theorem append (h : Binds ns s) {ns' : List String} (h' : Binds ns' t) : Binds (ns ++ ns') (s ++ t) := by
  intro bs
  rw [String.toList_append, List.append_assoc, h, h', List.append_assoc]

theorem statement (hs : ∃ c ∈ s.toList.head?, isPart c = true) (hn : ∀ bs, statementNames (s.toList ++ bs) = ns)
    (hg : Goes ⟨.code, 0⟩ s ⟨.start, 0⟩) : Binds ns s := by
  intro bs
  obtain ⟨c, hc, hpart⟩ := hs
  obtain ⟨cs, hs⟩ : ∃ cs, s.toList = c :: cs := List.head?_eq_some_iff.1 hc
  have hinert : isInert c = true := isInert_part hpart
  have hopen : c ≠ '\x7b' := fun he => by rw [he] at hpart; cases hpart
  rw [Goes, hs, Reader.after?_inert rfl hinert fun he => absurd he hopen] at hg
  rw [← hn bs, hs, List.cons_append, Reader.names, next_part hpart, Reader.names_of_after? hg]
  rfl

theorem lines_nil : Binds [] (linesText []) := .of_goes (.last rfl)

theorem lines_cons (h : Binds [] (l ++ "\n")) (h' : Binds [] (linesText ls)) : Binds [] (linesText (l :: ls)) := by
  rw [linesText_cons]
  exact h.append h'

theorem running {w : List Char} (hw : w <+: s.toList) (hpart : w.head?.any isPart = true)
    (hn : ∀ bs, statementNames (w ++ bs) = []) (hg : Goes ⟨.code, 0⟩ s ⟨.start, 0⟩) : Binds [] s := by
  obtain ⟨t, ht⟩ := hw
  refine .statement ?_ (fun bs => ?_) hg
  · obtain ⟨c, hc, hp⟩ := (Option.any_eq_true _ _).1 hpart
    exact ⟨c, by rw [← ht]; exact List.mem_head?_append_of_mem_head? hc, hp⟩
  · rw [← ht, List.append_assoc]
    exact hn _

theorem block {w : List Char} (hw : w <+: head.toList) (hpart : w.head?.any isPart = true)
    (hn : ∀ bs, statementNames (w ++ bs) = []) (hhead : Goes ⟨.code, 0⟩ (head ++ " \x7b" ++ "\n") ⟨.start, 1⟩)
    (hlines : Stays 1 ls) (htail : Line 1 ("\x7d" ++ tail) 0) : Binds [] (linesText (block head ls tail)) := by
  have hrows : Rows 1 (TypeScript.indent ls ++ ["\x7d" ++ tail]) 0 := Rows.append hlines.indent (.cons htail (.nil 0))
  rw [block_eq, linesText_cons]
  exact .running (prefix_append (prefix_append (prefix_append hw _) _) _) hpart hn (.append hhead hrows.goes)

end Binds

theorem leadingName_binding {w : String} (h : IsBinding w) (hend : cs.head?.any isPart = false) :
    leadingName (' ' :: (w.toList ++ cs)) = [w] := by
  obtain ⟨c, ds, hw⟩ := List.exists_cons_of_ne_nil (show w.toList ≠ [] by simpa using h.ne_empty)
  have hc : isBlank c = false := h.isWord c (by simp [hw])
  have hstrip : stripStart (' ' :: (w.toList ++ cs)) = w.toList ++ cs := by
    rw [hw, stripStart, List.dropWhile_cons_of_pos (by decide), List.cons_append,
      List.dropWhile_cons_of_neg (by simp [hc])]
  have htake : (w.toList ++ cs).takeWhile isPart = w.toList := by
    rw [List.takeWhile_append_of_pos h.parts]
    cases cs with
    | nil => simp
    | cons c cs => rw [List.takeWhile_cons_of_neg (by simpa using hend), List.append_nil]
  rw [leadingName, hstrip, htake, String.ofList_toList]
  exact List.filter_eq_self.2 fun n hn => by rw [List.mem_singleton.1 hn]; exact decide_eq_true h.ne_empty

theorem allSmooth_intercalate (h : ∀ n ∈ ns, IsBinding n) : AllSmooth (", ".intercalate ns) := by
  intro c hc
  rcases mem_intercalate hc with hc | ⟨n, hn, hc⟩
  · exact List.all_eq_true.1 (by decide : ", ".toList.all isSmooth = true) c hc
  · exact (h n hn).allSmooth c hc

theorem statementNames_import (cs : List Char) :
    statementNames ("import".toList ++ ' ' :: cs) = importedNames (' ' :: cs) := rfl

namespace Import.IsPlain

variable {i : Import}

theorem goes_source (h : i.IsPlain) : Goes ⟨.quoted '\'', 0⟩ i.source ⟨.quoted '\'', 0⟩ :=
  .inert rfl h.source fun _ => rfl

theorem binds_bare (h : i.IsPlain) (hn : i.names = []) : Binds i.bound (i.line ++ "\n") := by
  have hclause : AllSmooth i.clause := by
    rcases clause_bare hn with he | ⟨w, hw, he⟩
    · rw [he]; exact .literal (by decide)
    · rw [he]; exact (h.whole hw).allSmooth.append (.literal (by decide))
  have hlead : leadingName (' ' :: i.clause.toList) = i.whole.toList := by
    obtain ⟨whole, names, source⟩ := i
    obtain rfl : names = [] := hn
    cases whole with
    | none => rfl
    | some w =>
        have hlist : (Import.clause ⟨some w, [], source⟩).toList = w.toList ++ " from ".toList := String.toList_append
        rw [hlist]
        exact leadingName_binding (h.whole rfl) (by decide)
  refine .statement ⟨'i', by simp [Import.line], rfl⟩ (fun bs => ?_) ?_
  · have hlist : (i.line ++ "\n").toList ++ bs = "import".toList ++ (' ' :: i.clause.toList ++ '\'' ::
        (i.source.toList ++ '\'' :: ';' :: '\n' :: bs)) := by
      simp [Import.line]
    rw [hlist, List.cons_append, statementNames_import, ← List.cons_append, importedNames, h.takeWhile_clause, hlead,
      h.bracedNames_clause]
    rfl
  · exact .append (.append (.append (.append (.append (.last rfl) (.smooth rfl hclause)) (.last rfl)) h.goes_source)
      (.last rfl)) (.last rfl)

theorem exists_lead (h : i.IsPlain) (hn : i.names ≠ []) : ∃ lead : String,
    i.clause = lead ++ braces (", ".intercalate i.names) ++ " from " ∧ AllSmooth lead ∧
      (∀ ds, leadingName (' ' :: (lead.toList ++ ((braces (", ".intercalate i.names)).toList ++ ds))) =
        i.whole.toList) ∧ '\x7b' ∉ ' ' :: lead.toList := by
  obtain ⟨whole, names, source⟩ := i
  obtain ⟨n, ns, rfl⟩ := List.exists_cons_of_ne_nil hn
  cases whole with
  | none =>
      refine ⟨"", by rw [String.empty_append]; rfl, .literal (by decide), fun ds => ?_, by decide⟩
      rw [braces, String.toList_append, String.toList_append]
      rfl
  | some w =>
      have hw := h.whole rfl
      refine ⟨w ++ ", ", rfl, hw.allSmooth.append (.literal (by decide)), fun ds => ?_, ?_⟩
      · rw [String.toList_append, List.append_assoc]
        exact leadingName_binding hw (by rfl)
      · simp [hw.not_mem (c := '\x7b') (by decide)]

theorem binds_named (h : i.IsPlain) (hn : i.names ≠ []) : Binds i.bound (i.line ++ "\n") := by
  obtain ⟨lead, hclause, hsmooth, hlead, hopen⟩ := h.exists_lead hn
  have hnames : AllSmooth (", ".intercalate i.names) := allSmooth_intercalate h.names
  have hline : i.line ++ "\n" = ("import " ++ lead ++ braces (", ".intercalate i.names)) ++
      (" " ++ ("from '" ++ i.source ++ "';\n")) := by
    rw [← String.toList_inj]
    simp [Import.line, hclause]
  have hsource : Binds [] ("from '" ++ i.source ++ "';\n") := by
    refine .statement ⟨'f', by simp, rfl⟩ (fun bs => ?_) ?_
    · rw [String.toList_append, String.toList_append, List.append_assoc, List.append_assoc]
      rfl
    · exact .append (.append (.last rfl) h.goes_source) (.last rfl)
  have hblank : Binds [] " " := .of_goes (.last rfl)
  rw [hline, ← List.append_nil i.bound]
  refine .append ?_ (.append hblank hsource)
  refine .statement ⟨'i', by simp, rfl⟩ (fun bs => ?_) ?_
  · have hlist : ("import " ++ lead ++ braces (", ".intercalate i.names)).toList ++ bs = "import".toList ++ ' ' ::
        (lead.toList ++ ((braces (", ".intercalate i.names)).toList ++ bs)) := by
      simp
    have hall : ∀ c ∈ ' ' :: (lead.toList ++ (braces (", ".intercalate i.names)).toList), isClause c = true := by
      refine List.forall_mem_cons.2 ⟨by decide, fun c hc => h.isClause_clause c ?_⟩
      rw [hclause, String.toList_append, String.toList_append]
      exact List.mem_append_left _ hc
    rw [hlist, statementNames_import, importedNames, ← List.append_assoc, ← List.cons_append,
      List.takeWhile_append_of_pos hall, List.cons_append, List.append_assoc, hlead, ← List.cons_append,
      bracedNames_braces h.names hn hopen]
    rfl
  · have hbraces : Goes ⟨.code, 0⟩ (braces (", ".intercalate i.names)) ⟨.start, 0⟩ :=
      .append (.append (.last (q := ⟨.code, 1⟩) rfl) (.smooth rfl hnames)) (.last rfl)
    exact .append (.append (.last rfl) (.smooth rfl hsmooth)) hbraces

theorem binds (h : i.IsPlain) : Binds i.bound (i.line ++ "\n") := by
  by_cases hn : i.names = []
  · exact h.binds_bare hn
  · exact h.binds_named hn

end Import.IsPlain

theorem binds_exporting (h : ∀ n ∈ ns, IsBinding n) :
    Binds [] ("export " ++ braces (", ".intercalate ns) ++ ";" ++ "\n") := by
  refine .statement ⟨'e', by simp, rfl⟩ (fun bs => ?_) ?_
  · have hlist : ("export " ++ braces (", ".intercalate ns) ++ ";" ++ "\n").toList ++ bs = "export".toList ++ ' ' ::
        ("\x7b ".toList ++ ((", ".intercalate ns).toList ++ (" \x7d;\n".toList ++ bs))) := by
      simp [braces]
    rw [hlist]
    rfl
  · have hbraces : Goes ⟨.code, 0⟩ (braces (", ".intercalate ns)) ⟨.start, 0⟩ :=
      .append (.append (.last (q := ⟨.code, 1⟩) rfl) (.smooth rfl (allSmooth_intercalate h))) (.last rfl)
    exact .append (.append (.append (.last rfl) hbraces) (.last rfl)) (.last rfl)

variable {d : Declaration}

/-- A declaration whose lines close what they open. -/
structure Declaration.IsScoped (d : Declaration) : Prop where
  decorators : Stays 0 d.decorators
  name : IsBinding d.name
  ends : EndsName d.rest
  body : ∃ n, Goes ⟨.code, 0⟩ (d.rest ++ "\n") ⟨.start, n⟩ ∧ Rows n d.body 0

theorem Keyword.allSmooth (w : Keyword) : AllSmooth w.text := by
  have hall : w.text.toList.all isSmooth = true := by cases w <;> decide
  exact List.all_eq_true.1 hall

def Declaration.opening (d : Declaration) : String :=
  (if d.exported then "export " else "") ++ d.keyword.text ++ " " ++ d.name

theorem Declaration.statementNames_opening (h : d.IsScoped) (bs : List Char) :
    statementNames (d.opening.toList ++ (d.rest.toList ++ bs)) = [d.name] := by
  have hrest : (d.rest.toList ++ bs).head?.any isPart = false := by
    obtain ⟨c, hc, hpart⟩ := h.ends
    rw [List.mem_head?_append_of_mem_head? hc]
    exact hpart
  have hname := declaredName?_keyword d.keyword h.name hrest
  cases he : d.exported with
  | true =>
      have hlist : d.opening.toList ++ (d.rest.toList ++ bs) = "export".toList ++
          ' ' :: (d.keyword.text.toList ++ ' ' :: (d.name.toList ++ (d.rest.toList ++ bs))) := by
        simp [opening, he]
      have hword (cs : List Char) : statementNames ("export".toList ++ ' ' :: cs) =
          (declaredName? (stripStart (' ' :: cs))).toList := rfl
      rw [hlist, hword, stripStart_keyword, hname]
      rfl
  | false =>
      have hlist : d.opening.toList ++ (d.rest.toList ++ bs) = d.keyword.text.toList ++ ' ' ::
          (d.name.toList ++ (d.rest.toList ++ bs)) := by
        simp [opening, he]
      have hword (k : Keyword) (cs : List Char) : statementNames (k.text.toList ++ ' ' :: cs) =
          (declaredName? (k.text.toList ++ ' ' :: cs)).toList := by cases k <;> rfl
      rw [hlist, hword, hname]
      rfl

theorem Declaration.exists_opening (d : Declaration) : ∃ c cs, d.opening.toList = c :: cs ∧ isPart c = true := by
  have hkeyword : ∃ c cs, d.keyword.text.toList = c :: cs ∧ isPart c = true := by
    cases d.keyword <;> exact ⟨_, _, rfl, by decide⟩
  cases he : d.exported with
  | true => exact ⟨'e', _, by simp [opening, he]; rfl, by decide⟩
  | false =>
      obtain ⟨c, cs, hcs, hc⟩ := hkeyword
      exact ⟨c, cs ++ ' ' :: d.name.toList, by simp [opening, he, hcs], hc⟩

theorem Declaration.goes_opening (h : d.IsScoped) : Goes ⟨.code, 0⟩ d.opening ⟨.code, 0⟩ := by
  have hword : AllSmooth ((if d.exported then "export " else "") ++ d.keyword.text) := by
    refine .append ?_ ?_
    · split <;> exact .literal (by decide)
    · exact d.keyword.allSmooth
  exact .smooth rfl ((hword.append (.literal (by decide))).append h.name.allSmooth)

theorem Declaration.IsScoped.binds (h : d.IsScoped) : Binds [d.name] (linesText d.lines) := by
  obtain ⟨n, hrest, hbody⟩ := h.body
  have htext : linesText d.lines = linesText d.decorators ++ (d.opening ++ (d.rest ++ "\n") ++ linesText d.body) := by
    rw [← String.toList_inj, lines]
    simp [toList_linesText, opening]
  have hdecorators : Binds [] (linesText d.decorators) := .of_goes h.decorators.goes
  rw [htext, ← List.nil_append [d.name]]
  refine hdecorators.append (.statement ?_ (fun bs => ?_) ?_)
  · obtain ⟨c, cs, hopening⟩ := d.exists_opening
    exact ⟨c, by rw [String.toList_append, String.toList_append, hopening.1]; rfl, hopening.2⟩
  · rw [String.toList_append, String.toList_append, String.toList_append, List.append_assoc, List.append_assoc,
      List.append_assoc]
    exact d.statementNames_opening h _
  · exact .append (.append (d.goes_opening h) hrest) hbody.goes

theorem Declaration.isScoped_opened {decorators : List String} {exported : Bool} {w : Keyword} {name rest : String}
    (hdecorators : Stays 0 decorators) (hname : IsBinding name) (hends : EndsName rest)
    (hrest : Goes ⟨.code, 0⟩ (rest ++ "\n") ⟨.start, 1⟩) (hlines : Stays 1 ls) (hlast : Line 1 l 0) :
    IsScoped ⟨decorators, exported, w, name, rest, TypeScript.indent ls ++ [l]⟩ :=
  ⟨hdecorators, hname, hends, 1, hrest, Rows.append hlines.indent (.cons hlast (.nil 0))⟩

theorem Declaration.isScoped_line {exported : Bool} {w : Keyword} {name rest : String} (hname : IsBinding name)
    (hends : EndsName rest) (hrest : Goes ⟨.code, 0⟩ (rest ++ "\n") ⟨.start, 0⟩) :
    IsScoped ⟨[], exported, w, name, rest, []⟩ :=
  ⟨.nil 0, hname, hends, 0, hrest, .nil 0⟩

/-- A statement of which the reader takes what it binds and nothing else. -/
@[simp] def Statement.IsScoped : Statement → Prop
  | .importing i => i.IsPlain
  | .declaring d => d.IsScoped
  | .exporting ns => ∀ n ∈ ns, IsBinding n
  | .running ls => Binds [] (linesText ls)
  | .gap => True

theorem Statement.IsScoped.binds {st : Statement} (h : st.IsScoped) : Binds st.bound (linesText st.lines) := by
  have hone (l : String) : linesText [l] = l ++ "\n" := (linesText_cons l []).trans (String.append_empty)
  cases st with
  | importing i => rw [lines, hone]; exact Import.IsPlain.binds h
  | declaring d => exact Declaration.IsScoped.binds h
  | exporting ns => rw [lines, hone]; exact binds_exporting h
  | running ls => exact h
  | gap => exact .of_goes (.last rfl)

theorem Statement.IsScoped.isBinding_bound {st : Statement} (h : st.IsScoped) : ∀ n ∈ st.bound, IsBinding n := by
  intro n hn
  cases st with
  | importing i => exact Import.IsPlain.bound h n hn
  | declaring d => exact List.mem_singleton.1 hn ▸ Declaration.IsScoped.name h
  | exporting | running | gap => cases hn

/-- What a module binds is read off its text. -/
theorem Module.boundNames_text {m : Module} (h : ∀ st ∈ m, st.IsScoped) : boundNames m.text = m.bound := by
  have hbinds : Binds m.bound m.text := by
    induction m with
    | nil => exact .of_goes (.last rfl)
    | cons st m ih =>
        have htext : Module.text (st :: m) = linesText st.lines ++ Module.text m := linesText_append _ _
        rw [htext]
        exact (h st (by simp)).binds.append (ih fun st hst => h st (by simp [hst]))
  have happend := hbinds []
  rwa [List.append_nil, Reader.names, List.append_nil] at happend

-- Neither what stands in a block nor a brace in a literal counts.
example : boundNames ("import a, \x7b b, c \x7d from 'd';\nexport class E \x7b\n  f = '\x7d';\n  const g;\n\x7d\n" ++
    "const h = () => \x7b\x7d;\n") = ["a", "b", "c", "E", "h"] := by decide +kernel

end ApiScaffold.TypeScript
