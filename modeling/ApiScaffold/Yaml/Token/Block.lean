import ApiScaffold.Yaml.Character

namespace ApiScaffold.Yaml.Block

inductive Ending
  | strip | clip | keep
  deriving DecidableEq, Repr

structure Header where
  ending : Ending
  indent : Option Nat

def ending? (c : Char) : Option Ending :=
  if c == '+' then some .keep else if c == '-' then some .strip else none

def digit? (c : Char) : Option Nat := if '0' ≤ c ∧ c ≤ '9' then some (c.toNat - 48) else none

def indent (cs : List Char) : Except Fault (Option Nat × List Char) :=
  match cs with
  | [] => .ok (none, [])
  | c :: r =>
    match digit? c with
    | some 0 => .error .malformed
    | some n => .ok (some n, r)
    | none => .ok (none, c :: r)

def ending (cs : List Char) : Option Ending × List Char :=
  match cs with
  | [] => (none, [])
  | c :: r =>
    match ending? c with
    | some e => (some e, r)
    | none => (none, c :: r)

def restOfLine (cs : List Char) : Except Fault (List Char) :=
  match dropComment (dropSpaces cs) with
  | [] => .ok []
  | c :: r => if isBreak c then .ok r else .error .malformed

/-- The mark and the digit after the indicator, in either order, and what follows their line. -/
def header (cs : List Char) : Except Fault (Header × List Char) := do
  let (first, r) := ending cs
  let (n, r) ← indent r
  let (e, r) := if first.isSome || n.isNone then (first, r) else ending r
  if !wordEnds r then throw .malformed
  .ok (⟨e.getD .clip, n⟩, ← restOfLine r)

/-- The empty lines at the beginning, the deepest column that spaces reach, the column in which the text
begins, and the text; `column` and `deepest` are those of the spaces before. -/
def opening (column deepest : Nat) : List Char → List Char × Nat × Nat × List Char
  | [] => ([], deepest, column, [])
  | c :: cs =>
    if c == ' ' then opening (column + 1) (max deepest (column + 1)) cs
    else if isBreak c then
      let r := opening 0 deepest cs
      (breakText c :: r.1, r.2)
    else ([], deepest, column, c :: cs)

/-- The line breaks before the next line, spaces up to the indentation left out; the column in which that
line begins, and the line itself with what follows. -/
def breaks (indent column : Nat) : List Char → List Char × Nat × List Char
  | [] => ([], column, [])
  | c :: cs =>
    if c == ' ' && column < indent then breaks indent (column + 1) cs
    else if isBreak c then
      let r := breaks indent 0 cs
      (breakText c :: r.1, r.2)
    else ([], column, c :: cs)

structure Lines where
  text : List Char
  last : List Char
  more : List Char
  rest : List Char

def joint (folds : Bool) (line last more next : List Char) : List Char :=
  let spaced := fun (cs : List Char) => isSpacing (cs.headD 'x')
  if folds && last == ['\n'] && !spaced line && !spaced next then if more.isEmpty then [' '] else []
  else last

/-- Reads lines from one that begins at the indentation; `before` are the empty lines before it, and
`fuel` is at least the length of the text. -/
def lines (folds : Bool) (indent : Nat) : Nat → List Char → List Char → Lines
  | 0, before, cs => ⟨[], [], before, cs⟩
  | fuel + 1, before, cs =>
    let line := cs.takeWhile fun c => !isBreak c
    match cs.dropWhile fun c => !isBreak c with
    | [] => ⟨before ++ line, [], [], []⟩
    | b :: r =>
      let last := [breakText b]
      let (more, column, next) := breaks indent 0 r
      if column = indent ∧ next ≠ [] then
        let go := lines folds indent fuel more next
        { go with text := before ++ line ++ joint folds line last more next ++ go.text }
      else ⟨before ++ line, last, more, next⟩

/-- The text of a block scalar after its indicator, within a block that is indented to `outer`, and what
follows it. -/
def text (folds : Bool) (outer : Int) (cs : List Char) : Except Fault (List Char × List Char) := do
  let (h, r) ← header cs
  let least := (max (outer + 1) 1).toNat
  let (before, indent, column, body) := match h.indent with
    | some n =>
      let indent := least + n - 1
      let (before, column, body) := breaks indent 0 r
      (before, indent, column, body)
    | none =>
      let (before, deepest, column, body) := opening 0 0 r
      (before, max least deepest, column, body)
  let ls : Lines :=
    if column = indent ∧ body ≠ [] then lines folds indent body.length before body
    else ⟨[], [], before, body⟩
  .ok (match h.ending with
    | .strip => (ls.text, ls.rest)
    | .clip => (ls.text ++ ls.last, ls.rest)
    | .keep => (ls.text ++ ls.last ++ ls.more, ls.rest))

end ApiScaffold.Yaml.Block
