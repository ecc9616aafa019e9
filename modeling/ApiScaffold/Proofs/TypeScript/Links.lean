import ApiScaffold.Identifier
import ApiScaffold.Path
import ApiScaffold.Text.Character
import ApiScaffold.TypeScript.Module
import Mathlib.Data.List.Basic

namespace ApiScaffold.TypeScript

inductive LinkWord
  | importing | exporting
  deriving DecidableEq, Repr

/-- Where a reader stands. -/
inductive Spot
  /-- A statement may begin. -/
  | start
  /-- A statement has begun like a linking word, of which `rest` is to come. -/
  | word (w : LinkWord) (rest : List Char)
  /-- Between the word `import` and what is imported from. -/
  | clause
  | code
  | quoted (mark : Char)
  | escaped (mark : Char)
  deriving DecidableEq, Repr

def isMark (c : Char) : Bool := c == '\'' || c == '"' || c == '\x60'

def isBreak (c : Char) : Bool := c == '\n' || c == '\r'

def isInert (c : Char) : Bool := !isMark c && !isBreak c && c != ';' && c != '\x7d' && c != '\\'

def isClause (c : Char) : Bool :=
  Identifier.isPart c || [' ', '\t', '\n', '\r', '\x7b', '\x7d', ',', '*'].contains c

def LinkWord.spot : LinkWord → Spot
  | importing => .clause
  | exporting => .code

namespace Spot

def afterCode (c : Char) : Spot :=
  if isMark c then quoted c
  else if c == ';' || c == '\x7d' || isBreak c then start
  else code

def next : Spot → Char → Spot
  | start, c =>
    if c == ' ' || c == '\t' then start
    else if c == 'i' then word .importing "mport".toList
    else if c == 'e' then word .exporting "xport".toList
    else afterCode c
  | word w rest, c =>
    if rest = [c] then w.spot
    else if rest.head? = some c then word w rest.tail
    else afterCode c
  | clause, c => if isClause c then clause else afterCode c
  | code, c => afterCode c
  | quoted mark, c =>
    if c == '\\' then escaped mark
    else if c == mark then code
    else if isBreak c && mark != '\x60' then start
    else quoted mark
  | escaped mark, _ => quoted mark

def opens (w : LinkWord) (k : Spot) (c : Char) : Bool :=
  match k with
  | word v rest => v == w && rest == [c]
  | _ => false

/-- Where the reader stands after a text in which no link begins. -/
def after? : Spot → List Char → Option Spot
  | k, [] => some k
  | k, c :: cs => if k == clause && isMark c then none else after? (k.next c) cs

def gather {α : Type} (w : LinkWord) (read : List Char → List α) : Spot → List Char → List α
  | _, [] => []
  | k, c :: cs => (if k.opens w c then read cs else []) ++ gather w read (k.next c) cs

end Spot

structure Link where
  names : List String
  source : String
  deriving DecidableEq, Repr

def bracedNames (cs : List Char) : List String :=
  (((((cs.dropWhile (· != '\x7b')).drop 1).takeWhile (· != '\x7d')).splitOn ',').map fun n =>
    String.ofList (Text.strip n)).filter (· ≠ "")

/-- What an import links to, from the text behind its word. -/
def link? (cs : List Char) : Option Link :=
  match cs.dropWhile isClause with
  | [] => none
  | mark :: rest =>
    if isMark mark then some ⟨bracedNames (cs.takeWhile isClause), .ofList (rest.takeWhile (· != mark))⟩ else none

def Keyword.all : List Keyword := [.classType, .interfaceType, .constant, .function, .typeName]

def declaredName? (cs : List Char) : Option String :=
  if Keyword.all.any fun k => k.text.toList == cs.takeWhile Identifier.isPart then
    some (.ofList ((Text.stripStart (cs.dropWhile Identifier.isPart)).takeWhile Identifier.isPart))
  else none

def exportedNames (cs : List Char) : List String :=
  if cs.head?.any Identifier.isPart then []
  else if (Text.stripStart cs).head? = some '\x7b' then bracedNames cs
  else (declaredName? (Text.stripStart cs)).toList

def Spot.links (k : Spot) (cs : List Char) : List Link := gather .importing (fun ds => (link? ds).toList) k cs

def Spot.exports (k : Spot) (cs : List Char) : List String := gather .exporting exportedNames k cs

def links (text : String) : List Link := Spot.start.links text.toList

def exports (text : String) : List String := Spot.start.exports text.toList

namespace Spot

variable {α : Type} {w : LinkWord} {read : List Char → List α} {j k : Spot} {c : Char} {as bs : List Char}

def IsInner (k : Spot) : Prop := k = code ∨ ∃ m, k = quoted m ∧ isMark m = true

theorem isInner_code : IsInner code := .inl rfl

theorem isInner_quoted : IsInner (quoted '\'') := .inr ⟨'\'', rfl, rfl⟩

theorem IsInner.ne_clause (hk : k.IsInner) : k ≠ clause := by
  rcases hk with rfl | ⟨m, rfl, -⟩ <;> simp

theorem IsInner.next_inert (hk : k.IsInner) (hc : isInert c = true) : k.next c = k := by
  simp only [isInert, Bool.and_eq_true, Bool.not_eq_true', bne_iff_ne] at hc
  obtain ⟨⟨⟨⟨hmark, hbreak⟩, hsemicolon⟩, hbrace⟩, hslash⟩ := hc
  rcases hk with rfl | ⟨m, rfl, hm⟩
  · simp [next, afterCode, hmark, hbreak, hsemicolon, hbrace]
  · have hne : c ≠ m := by
      rintro rfl
      rw [hm] at hmark
      cases hmark
    simp [next, hslash, hne, hbreak]

theorem IsInner.after?_inert (hk : k.IsInner) (h : ∀ c ∈ as, isInert c = true) : after? k as = some k := by
  induction as with
  | nil => rfl
  | cons c as ih =>
      rw [after?, beq_eq_false_iff_ne.2 hk.ne_clause, hk.next_inert (h c (by simp))]
      exact ih fun d hd => h d (by simp [hd])

theorem after?_append (k : Spot) (as bs : List Char) :
    after? k (as ++ bs) = (after? k as).bind fun j => after? j bs := by
  induction as generalizing k with
  | nil => rfl
  | cons c as ih =>
      rw [List.cons_append, after?, after?]
      split
      · rfl
      · exact ih _

theorem foldl_of_after? (h : after? k as = some j) : as.foldl next k = j := by
  induction as generalizing k with
  | nil => exact Option.some.inj h
  | cons c as ih =>
      rw [after?] at h
      split at h
      · cases h
      · exact ih h

theorem gather_append (w : LinkWord) (read : List Char → List α) (k : Spot) (as bs : List Char) :
    ∃ xs, gather w read k (as ++ bs) = xs ++ gather w read (as.foldl next k) bs := by
  induction as generalizing k with
  | nil => exact ⟨[], rfl⟩
  | cons c as ih =>
      obtain ⟨xs, hxs⟩ := ih (k.next c)
      rw [List.cons_append, gather, hxs]
      exact ⟨_ ++ xs, (List.append_assoc _ _ _).symm⟩

theorem next_of_opens (h : k.opens w c = true) : k.next c = w.spot := by
  cases k with
  | word v rest =>
      simp only [opens, Bool.and_eq_true, beq_iff_eq] at h
      obtain ⟨rfl, rfl⟩ := h
      simp [next]
  | start | clause | code | quoted | escaped => cases h

theorem link?_cons (h : isClause c = true) (hcs : link? as = none) : link? (c :: as) = none := by
  unfold link? at hcs ⊢
  rw [List.dropWhile_cons_of_pos h]
  split
  next => rfl
  next mark rest hdrop =>
    rw [hdrop] at hcs
    dsimp only at hcs
    split at hcs
    next => cases hcs
    next hmark => exact if_neg hmark

theorem links_cons (k : Spot) (c : Char) (cs : List Char) :
    k.links (c :: cs) = (if k.opens .importing c then (link? cs).toList else []) ++ (k.next c).links cs := rfl

/-- No link is read in a text that passes, and none that began before it is completed. -/
theorem links_of_after? (h : after? k as = some j) (hj : j ≠ clause) (bs : List Char) :
    k.links (as ++ bs) = j.links bs ∧ (k = clause → link? (as ++ bs) = none) := by
  induction as generalizing k with
  | nil =>
      obtain rfl : k = j := Option.some.inj h
      exact ⟨rfl, fun hk => absurd hk hj⟩
  | cons c as ih =>
      rw [after?] at h
      split at h
      next => cases h
      next hmark =>
        obtain ⟨hlinks, hlink⟩ := ih h
        -- The parts need each other: an import that begins in the text is not completed by what comes after it.
        constructor
        · rw [List.cons_append, links_cons, hlinks]
          split
          next hopens => rw [hlink (next_of_opens hopens)]; rfl
          next => rfl
        · rintro rfl
          simp only [beq_self_eq_true, Bool.true_and, Bool.not_eq_true] at hmark
          by_cases hc : isClause c = true
          · exact link?_cons hc (hlink (if_pos hc))
          · rw [List.cons_append, link?, List.dropWhile_cons_of_neg hc]
            simp [hmark]

theorem foldl_next_of_forall (h : ∀ c ∈ as, k.next c = k) : as.foldl next k = k := by
  induction as with
  | nil => rfl
  | cons c as ih =>
      rw [List.foldl_cons, h c (by simp)]
      exact ih fun d hd => h d (by simp [hd])

theorem next_clause (h : isClause c = true) : clause.next c = clause := if_pos h

theorem links_clause (h : ∀ c ∈ as, isClause c = true) (bs : List Char) : clause.links (as ++ bs) = clause.links bs := by
  induction as with
  | nil => rfl
  | cons c as ih =>
      rw [List.cons_append, links_cons, next_clause (h c (by simp)), ih fun d hd => h d (by simp [hd])]
      rfl

end Spot

end ApiScaffold.TypeScript
