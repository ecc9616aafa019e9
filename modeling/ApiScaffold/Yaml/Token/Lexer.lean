import ApiScaffold.Yaml.Token.Block
import ApiScaffold.Yaml.Token.Plain
import ApiScaffold.Yaml.Token.Property
import ApiScaffold.Yaml.Token.Quoted

namespace ApiScaffold.Yaml

/-- A value that may be a key: the number of its first token, and its place. -/
structure Candidate where
  number : Nat
  /-- Nothing but a key may stand here. -/
  required : Bool
  index : Nat
  line : Nat
  column : Nat

def Candidate.isStale (c : Candidate) (k : Cursor) : Bool := c.line != k.line || 1024 < k.index - c.index

/-- How far a text is read: `depth` counts the brackets that are open, `indent` is the column of the
innermost block and `outer` are those around it, and `candidates` has one value at most for each depth. -/
structure Lexer where
  place : Cursor
  depth : Nat
  indent : Int
  outer : List Int
  keyAllowed : Bool
  candidates : List (Nat × Candidate)
  tokens : Array Token
  ended : Bool

namespace Lexer

def start (cs : List Char) : Lexer := ⟨.start cs, 0, -1, [], true, [], #[], false⟩

def push (t : Token) (l : Lexer) : Lexer := { l with tokens := l.tokens.push t }

def emit (n : Nat) (t : Token) (l : Lexer) : Lexer := { l.push t with place := l.place.skip n }

def allowKey (b : Bool) (l : Lexer) : Lexer := { l with keyAllowed := b }

def dropStale (l : Lexer) : Except Fault Lexer :=
  if l.candidates.any fun c => c.2.required && c.2.isStale l.place then .error .malformed
  else .ok { l with candidates := l.candidates.filter fun c => !c.2.isStale l.place }

def dropCandidate (l : Lexer) : Except Fault Lexer :=
  if l.candidates.any fun c => c.1 == l.depth && c.2.required then .error .malformed
  else .ok { l with candidates := l.candidates.filter fun c => c.1 != l.depth }

def noteCandidate (l : Lexer) : Except Fault Lexer := do
  if !l.keyAllowed then return l
  let l ← l.dropCandidate
  let k := l.place
  let c : Candidate :=
    ⟨l.tokens.size, l.depth = 0 && l.indent = (k.column : Int), k.index, k.line, k.column⟩
  return { l with candidates := (l.depth, c) :: l.candidates }

def closeBlocks (column : Int) : List Int → Lexer → Lexer
  | [], l => l
  | i :: outer, l =>
    if column < l.indent then closeBlocks column outer ({ l with indent := i, outer }.push .blockEnd)
    else l

/-- Ends the blocks that are indented deeper than a column; within brackets there are none. -/
def unwind (column : Int) (l : Lexer) : Lexer := if l.depth = 0 then closeBlocks column l.outer l else l

/-- Opens a block with a token at a place among the others, unless one is open in this column. -/
def openBlock (t : Token) (number column : Nat) (l : Lexer) : Lexer :=
  if l.depth = 0 ∧ l.indent < column then
    { l with
      indent := column, outer := l.indent :: l.outer, tokens := l.tokens.insertIdxIfInBounds number t }
  else l

def openHere (t : Token) (l : Lexer) : Lexer := l.openBlock t l.tokens.size l.place.column

def skipLines (comment : Bool) : List Char → Bool × List Char
  | [] => (false, [])
  | c :: cs =>
    if isBreak c then (true, (skipLines false cs).2)
    else if comment || c == '#' then skipLines true cs
    else if c == ' ' then skipLines false cs
    else (false, c :: cs)

def toNextToken (l : Lexer) : Lexer :=
  let k := if l.place.index = 0 ∧ l.place.rest.head? = some byteOrderMark then l.place.step else l.place
  let r := skipLines false k.rest
  { l with place := k.upTo r.2, keyAllowed := l.keyAllowed || r.1 && l.depth = 0 }

def finish (l : Lexer) : Except Fault Lexer := do
  let l ← (l.unwind (-1)).dropCandidate
  return { l.push .streamEnd with candidates := [], ended := true }

def openDocument (t : Token) (l : Lexer) : Except Fault Lexer := do
  let l ← (l.unwind (-1)).dropCandidate
  return (l.allowKey false).emit 3 t

def directive (cs : List Char) (l : Lexer) : Except Fault Lexer := do
  let l ← (l.unwind (-1)).dropCandidate
  let (d, r) ← Property.directive cs
  return { (l.allowKey false).push (.directive d) with place := l.place.upTo r }

def openBracket (t : Token) (l : Lexer) : Except Fault Lexer := do
  let l ← l.noteCandidate
  return { (l.allowKey true).emit 1 t with depth := l.depth + 1 }

def closeBracket (t : Token) (l : Lexer) : Except Fault Lexer := do
  let l ← l.dropCandidate
  if l.depth = 0 then throw .malformed
  return { (l.allowKey false).emit 1 t with depth := l.depth - 1 }

def entry (l : Lexer) : Except Fault Lexer := do
  let l ← l.dropCandidate
  return (l.allowKey true).emit 1 .entry

def item (l : Lexer) : Except Fault Lexer := do
  if l.depth = 0 && !l.keyAllowed then throw .malformed
  let l ← (l.openHere .blockSequence).dropCandidate
  return (l.allowKey true).emit 1 .item

def key (l : Lexer) : Except Fault Lexer := do
  if l.depth = 0 && !l.keyAllowed then throw .malformed
  let l ← (l.openHere .blockMapping).dropCandidate
  return (l.allowKey (l.depth = 0)).emit 1 .key

/-- A value after a colon, which makes a key of the candidate of this depth. -/
def value (l : Lexer) : Except Fault Lexer := do
  match l.candidates.lookup l.depth with
  | some c =>
    let l := { l with
      candidates := l.candidates.filter fun c => c.1 != l.depth,
      tokens := l.tokens.insertIdxIfInBounds c.number .key }
    let l := l.openBlock .blockMapping c.number c.column
    return (l.allowKey false).emit 1 .value
  | none =>
    if l.depth = 0 && !l.keyAllowed then throw .malformed
    let l := l.openHere .blockMapping
    return (l.allowKey (l.depth = 0)).emit 1 .value

def property (f : List Char → Except Fault (Token × List Char)) (l : Lexer) : Except Fault Lexer := do
  let l ← l.noteCandidate
  let (t, r) ← f l.place.step.rest
  return { (l.allowKey false).push t with place := l.place.upTo r }

def quoted (double : Bool) : Lexer → Except Fault Lexer :=
  property fun cs => (Quoted.text double (cs.length + 1) cs).map fun p => (.scalar p.1 false, p.2)

def block (folds : Bool) (l : Lexer) : Except Fault Lexer := do
  let l ← l.dropCandidate
  let (s, r) ← Block.text folds l.indent l.place.step.rest
  return { (l.allowKey true).push (.scalar (s.map Char.toNat) false) with place := l.place.upTo r }

def plain (l : Lexer) : Except Fault Lexer := do
  let l ← l.noteCandidate
  let (s, k, broken) := Plain.text (l.depth != 0) (l.indent + 1) l.place.rest.length l.place
  return { (l.allowKey broken).push (.scalar (s.map Char.toNat) true) with place := k }

def token (c : Char) (cs : List Char) (l : Lexer) : Except Fault Lexer :=
  let inFlow := l.depth != 0
  let lineStart := l.place.column = 0
  if lineStart && c == '%' then l.directive cs
  else if lineStart && isMark '-' (c :: cs) then l.openDocument .documentStart
  else if lineStart && isMark '.' (c :: cs) then l.openDocument .documentEnd
  else if c == '[' then l.openBracket .sequenceStart
  else if c == '\x7b' then l.openBracket .mappingStart
  else if c == ']' then l.closeBracket .sequenceEnd
  else if c == '\x7d' then l.closeBracket .mappingEnd
  else if c == ',' then l.entry
  else if c == '-' && gapNext cs then l.item
  else if c == '?' && (inFlow || gapNext cs) then l.key
  else if c == ':' && (inFlow || gapNext cs) then l.value
  else if c == '*' then
    l.property fun cs => (Property.anchor cs).map fun p => (.alias p.1, p.2)
  else if c == '&' then
    l.property fun cs => (Property.anchor cs).map fun p => (.anchor p.1, p.2)
  else if c == '!' then l.property Property.tag
  else if c == '|' && !inFlow then l.block false
  else if c == '>' && !inFlow then l.block true
  else if c == '\'' then l.quoted false
  else if c == '"' then l.quoted true
  else if Plain.mayBegin inFlow (c :: cs) then l.plain
  else .error .malformed

def next (l : Lexer) : Except Fault Lexer := do
  let l ← l.toNextToken.dropStale
  let l := l.unwind l.place.column
  match l.place.rest with
  | [] => l.finish
  | c :: cs => l.token c cs

/-- The tokens that are candidates no more. -/
def settled (l : Lexer) : List Token :=
  let waiting := (l.candidates.filter fun c => !c.2.isStale l.place).map (·.2.number)
  match waiting.min? with
  | some n => l.tokens.toList.take n
  | none => l.tokens.toList

/-- Reads on to the end, or to what stops it; `fuel` is more than the length of the rest. -/
def run : Nat → Lexer → List Token
  | 0, l => l.settled ++ [.stop .malformed]
  | fuel + 1, l =>
    match l.next with
    | .error f => l.settled ++ [.stop f]
    | .ok l => if l.ended then l.tokens.toList else run fuel l

end Lexer

/-- The tokens of a text, of which the last ends the stream or tells why nothing more can be read. -/
def Token.read (cs : List Char) : List Token := (Lexer.start cs).run (cs.length + 1)

end ApiScaffold.Yaml
