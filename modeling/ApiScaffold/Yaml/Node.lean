import ApiScaffold.Yaml.Tag
import ApiScaffold.Yaml.Token

namespace ApiScaffold.Yaml

inductive Node
  | scalar (tag : Tag) (codes : List Nat)
  | sequence (tag : Tag) (items : List Node)
  | mapping (tag : Tag) (entries : List (Node × Node))
  /-- The sequence, or else the mapping, in which it stands itself. -/
  | enclosing (isMapping : Bool)

namespace Node

def tag : Node → Tag
  | scalar t _ | sequence t _ | mapping t _ => t
  | enclosing isMapping => if isMapping then .map else .seq

def empty : Node := .scalar .null []

/-- Tokens that are still to be read, the nodes that anchors name, and what the handles of tags stand for. -/
structure Source where
  tokens : List Token
  anchors : List (String × Node)
  handles : List (String × String)

abbrev Reading := StateT Source (Except Fault)

def malformed {α : Type} : Reading α := throw .malformed

def peek : Reading Token := do
  match (← get).tokens with
  | [] => malformed
  | .stop f :: _ => throw f
  | t :: _ => return t

def drop : Reading Unit := modify fun s => { s with tokens := s.tokens.tail }

def take (t : Token) : Reading Bool := do
  if (← peek) = t then
    drop
    return true
  return false

structure Properties where
  anchor : Option String
  tag : Option String

def tagName (handle : Option String) (suffix : String) : Reading String := do
  match handle with
  | none => return suffix
  | some h =>
    match (← get).handles.lookup h with
    | some name => return name ++ suffix
    | none => malformed

def anchor? : Reading (Option String) := do
  match ← peek with
  | .anchor name =>
    drop
    return some name
  | _ => return none

def tag? : Reading (Option (Option String × String)) := do
  match ← peek with
  | .tag handle suffix =>
    drop
    return some (handle, suffix)
  | _ => return none

def properties : Reading Properties := do
  let first ← anchor?
  let tag ← tag?
  let anchor ← if first.isNone && tag.isSome then anchor? else pure first
  match tag with
  | some (handle, suffix) => return ⟨anchor, some (← tagName handle suffix)⟩
  | none => return ⟨anchor, none⟩

/-- A tag that leaves it to the value what it denotes. -/
def Properties.isOpen (p : Properties) : Bool := p.tag.all (· = "!")

def Properties.tagOr (p : Properties) (t : Tag) : Tag :=
  if p.isOpen then t else Tag.ofName (p.tag.getD "")

def Properties.scalar (p : Properties) (codes : List Nat) (plain : Bool) : Node :=
  let guessed := if plain || p.tag.isSome then Tag.ofPlain (codes.map Text.shownCode) else .str
  .scalar (p.tagOr guessed) codes

def name (p : Properties) (n : Node) : Reading Unit :=
  match p.anchor with
  | none => pure ()
  | some a => modify fun s => { s with anchors := (a, n) :: s.anchors }

def checkName (p : Properties) : Reading Unit := do
  if (← get).anchors.any fun a => some a.1 = p.anchor then malformed

def aliased (a : String) : Reading Node := do
  match (← get).anchors.lookup a with
  | some n => return n
  | none => malformed

/-- A node that holds others, which it may not know before they are read. -/
def named (p : Properties) (isMapping : Bool) (read : Reading Node) : Reading Node := do
  checkName p
  name p (.enclosing isMapping)
  let n ← read
  name p n
  return n

def endsEntry : Token → Bool
  | .key | .value | .blockEnd => true
  | _ => false

def endsItem : Token → Bool
  | .item | .blockEnd => true
  | _ => false

def left (p : Properties) : Reading Node := do
  if p.anchor.isNone && p.tag.isNone then malformed
  else
    checkName p
    let n := Node.scalar (p.tagOr .null) []
    name p n
    return n

mutual

/-- A node; `block` admits blocks, and `hanging` items in the column of the key before them. Here and below
`fuel` is at least twice the number of tokens. -/
def read (block hanging : Bool) : Nat → Reading Node
  | 0 => malformed
  | fuel + 1 => do
    match ← peek with
    | .alias a =>
      drop
      aliased a
    | _ =>
      let p ← properties
      match ← peek with
      | .item =>
        if hanging then named p false do
          return .sequence (p.tagOr .seq) (← hangingItems fuel)
        else left p
      | .scalar codes plain =>
        drop
        checkName p
        let n := p.scalar codes plain
        name p n
        return n
      | .sequenceStart =>
        drop
        named p false do
          return .sequence (p.tagOr .seq) (← flowItems fuel true)
      | .mappingStart =>
        drop
        named p true do
          return .mapping (p.tagOr .map) (← flowEntries fuel true)
      | .blockSequence =>
        if block then
          drop
          named p false do
            return .sequence (p.tagOr .seq) (← items fuel)
        else left p
      | .blockMapping =>
        if block then
          drop
          named p true do
            return .mapping (p.tagOr .map) (← entries fuel)
        else left p
      | _ => left p

def items : Nat → Reading (List Node)
  | 0 => malformed
  | fuel + 1 => do
    if ← take .item then
      let n ← if endsItem (← peek) then pure empty else read true false fuel
      return n :: (← items fuel)
    else if ← take .blockEnd then return []
    else malformed

/-- Items in the column of a key, up to anything else. -/
def hangingItems : Nat → Reading (List Node)
  | 0 => malformed
  | fuel + 1 => do
    if ← take .item then
      let next ← peek
      let n ← if endsItem next || endsEntry next then pure empty else read true false fuel
      return n :: (← hangingItems fuel)
    else return []

def entries : Nat → Reading (List (Node × Node))
  | 0 => malformed
  | fuel + 1 => do
    if ← take .key then
      let k ← if endsEntry (← peek) then pure empty else read true true fuel
      let v ← if ← take .value then
          if endsEntry (← peek) then pure empty else read true true fuel
        else pure empty
      return (k, v) :: (← entries fuel)
    else if ← take .blockEnd then return []
    else malformed

def flowEntry (close : Token) : Nat → Reading (Node × Node)
  | 0 => malformed
  | fuel + 1 => do
    let next ← peek
    let k ← if next = .value || next = .entry || next = close then pure empty else read false false fuel
    let v ← if ← take .value then
        let next ← peek
        if next = .entry || next = close then pure empty else read false false fuel
      else pure empty
    return (k, v)

/-- The items of a sequence between brackets, up to its end; a key makes a mapping of its entry. -/
def flowItems : Nat → Bool → Reading (List Node)
  | 0, _ => malformed
  | fuel + 1, isFirst => do
    if ← take .sequenceEnd then return []
    if !isFirst then
      if !(← take .entry) then malformed
    if ← take .key then
      let e ← flowEntry .sequenceEnd fuel
      return .mapping .map [e] :: (← flowItems fuel false)
    else if ← take .sequenceEnd then return []
    else
      let n ← read false false fuel
      return n :: (← flowItems fuel false)

def flowEntries : Nat → Bool → Reading (List (Node × Node))
  | 0, _ => malformed
  | fuel + 1, isFirst => do
    if ← take .mappingEnd then return []
    if !isFirst then
      if !(← take .entry) then malformed
    if ← take .key then
      let e ← flowEntry .mappingEnd fuel
      return e :: (← flowEntries fuel false)
    else if ← take .mappingEnd then return []
    else
      let k ← read false false fuel
      return (k, empty) :: (← flowEntries fuel false)

end

def standardHandles : List (String × String) := [("!", "!"), ("!!", Tag.scheme)]

/-- The directives before a document: one version at most, which must be a first one, and each handle once. -/
def directives : Nat → Bool → List (String × String) → Reading (List (String × String))
  | 0, _, _ => malformed
  | fuel + 1, versioned, handles => do
    match ← peek with
    | .directive (.version major) =>
      drop
      if versioned || major ≠ 1 then malformed else directives fuel true handles
    | .directive (.handle h name) =>
      drop
      if handles.any fun p => p.1 = h then malformed else directives fuel versioned ((h, name) :: handles)
    | .directive .unknown =>
      drop
      directives fuel versioned handles
    | _ => return handles

def dropEnds : Nat → Reading Unit
  | 0 => pure ()
  | fuel + 1 => do
    if ← take .documentEnd then dropEnds fuel

def endsDocument : Token → Bool
  | .directive _ | .documentStart | .documentEnd | .streamEnd => true
  | _ => false

def close (fuel : Nat) (n : Node) : Reading (Option Node) := do
  dropEnds fuel
  if ← take .streamEnd then return some n else malformed

def document (fuel : Nat) : Reading (Option Node) := do
  match ← peek with
  | .streamEnd => return none
  | .directive _ | .documentStart =>
    let handles ← directives fuel false []
    if !(← take .documentStart) then malformed
    modify fun s => { s with handles := handles ++ standardHandles }
    close fuel (← if endsDocument (← peek) then pure empty else read true false fuel)
  | _ => close fuel (← read true false fuel)

def ofTokens (ts : List Token) : Except Fault (Option Node) :=
  ((document (4 * ts.length + 4)).run ⟨ts, [], standardHandles⟩).map (·.1)

end Node

end ApiScaffold.Yaml
