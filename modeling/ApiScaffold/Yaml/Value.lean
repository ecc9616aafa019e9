import ApiScaffold.Text.Base64
import ApiScaffold.Yaml.Node
import ApiScaffold.Yaml.Numeral
import ApiScaffold.Yaml.Token.Lexer

namespace ApiScaffold.Yaml

/-- Faults by level: those that arise at once, those one level deeper, and so on. -/
abbrev Levels := List (List Fault)

namespace Levels

def append : Levels → Levels → Levels
  | [], ls => ls
  | ks, [] => ks
  | k :: ks, l :: ls => (k ++ l) :: append ks ls

def concat (all : List Levels) : Levels := all.foldl append []

def first? (ls : Levels) : Option Fault := ls.flatten.head?

def malformed : Levels := [[.malformed]]

end Levels

structure Outcome where
  value : Data
  faults : Levels

abbrev Entry := Outcome × Outcome

/-- What a node is made into. The entries of a mapping stand apart, as they are written and with those that
they take over, since another mapping may take them over in turn; `codes` are those of a scalar's text, or of
a mapping that stands for one. -/
structure Made extends Outcome where
  isMapping : Bool
  written : Option (List Entry)
  entries : Option (List Entry)
  items : Option (List (Option (List Entry)))
  codes : Option (List Nat)

namespace Made

def ofResult : Except Fault Data → Outcome
  | .ok d => ⟨d, []⟩
  | .error f => ⟨.null, [[f]]⟩

def truth (text : List Char) : Except Failure Data :=
  let word := String.ofList (text.map Char.toLower)
  if ["yes", "true", "on"].contains word then .ok (.bool true)
  else if ["no", "false", "off"].contains word then .ok (.bool false)
  else .error (.noTruth word)

def time (text : List Char) : Except Failure Data :=
  match Timestamp.parts? (Tag.dropFeed text) with
  | none => .error .noDate
  | some p =>
    match p.value with
    | .ok (.inl d) => .ok (.date d)
    | .ok (.inr m) => .ok (.moment m)
    | .error f => .error (.badDate f)

def binary (text : List Char) : Except Fault Data :=
  if text.any fun c => 0x80 ≤ c.toNat then .error .malformed
  else
    match Text.Base64.decode? text with
    | some bs => .ok (.bytes bs)
    | none => .error .malformed

def scalarValue (t : Tag) (codes : List Nat) : Except Fault Data :=
  let text := codes.map Text.shownCode
  match t with
  | .null => .ok .null
  | .str => .ok (.ofCodes codes)
  | .binary => binary text
  | .bool => (truth text).mapError .refused
  | .int => ((Numeral.int text).map fun n => .number (.int n)).mapError .refused
  | .float => (Numeral.float text).mapError .refused
  | .timestamp => (time text).mapError .refused
  | _ => .error .malformed

def ofText (t : Tag) (codes : Option (List Nat)) : Outcome :=
  ofResult (match codes with
    | some cs => scalarValue t cs
    | none => .error .malformed)

/-- A collection whose tag is that of another kind, which shows one level deeper. -/
def mismatched (d : Data) : Outcome := ⟨d, [[], [.malformed]]⟩

def entryFaults (e : Entry) : Levels :=
  Levels.concat [e.1.faults, if e.1.value.isHashable then [] else Levels.malformed, e.2.faults]

def mappingFaults : Option (List Entry) → Levels
  | some es => [] :: Levels.concat (es.map entryFaults)
  | none => [] :: Levels.malformed

def mappingValue (entries : Option (List Entry)) : List (Data × Data) :=
  Data.entriesOf ((entries.getD []).map fun e => (e.1.value, e.2.value))

def ofList (items : List Outcome) : Outcome :=
  ⟨.list (items.map (·.value)), [] :: Levels.concat (items.map (·.faults))⟩

/-- The one entry of each item, in order; the faults end with the first item that has not one entry. -/
def pairsOf : List (Option (List Entry)) → List Data × Levels
  | [] => ([], [])
  | some [(k, v)] :: es =>
    let r := pairsOf es
    (.pair k.value v.value :: r.1, Levels.concat [k.faults, v.faults, r.2])
  | _ :: _ => ([], Levels.malformed)

/-- The entries that a value gives to a mapping that takes them over: its own, or those of the mappings in
a list, of which the first counts most. -/
def given (m : Made) : Option (List Entry) :=
  if m.isMapping then m.entries
  else do
    let all ← (← m.items).mapM id
    some all.reverse.flatten

/-- The entries of a mapping behind those that it takes over; nothing if it cannot take some over. -/
def flatten (es : List (Node × Made × Made)) : Option (List Entry) := do
  let taken ← (es.filter fun e => e.1.tag = .merge).mapM fun e => e.2.2.given
  let own := (es.filter fun e => e.1.tag ≠ .merge).map fun (k, m, v) =>
    (if k.tag = .value then ofText .str m.codes else m.toOutcome, v.toOutcome)
  some (taken.flatten ++ own)

def codesOf (es : List (Node × Made × Made)) : Option (List Nat) :=
  (es.find? fun e => e.1.tag = .value).bind fun e => e.2.2.codes

def ofScalar (t : Tag) (codes : List Nat) : Made :=
  let outcome := match t with
    | .seq | .omap | .pairs => mismatched (.list [])
    | .map => mismatched (.mapping [])
    | .set => mismatched (.set [])
    | t => ofText t (some codes)
  ⟨outcome, false, none, none, none, some codes⟩

def ofSequence (t : Tag) (items : List Made) : Made :=
  let outcome := match t with
    | .seq => ofList (items.map toOutcome)
    | .omap | .pairs =>
      let r := pairsOf (items.map written)
      ⟨.list r.1, [] :: r.2⟩
    | .map => mismatched (.mapping [])
    | .set => mismatched (.set [])
    | t => ofText t none
  ⟨outcome, false, none, none, some (items.map fun i => if i.isMapping then i.entries else none), none⟩

def ofMapping (t : Tag) (es : List (Node × Made × Made)) : Made :=
  let entries := flatten es
  let outcome := match t with
    | .map => ⟨.mapping (mappingValue entries), mappingFaults entries⟩
    | .set => ⟨.set ((mappingValue entries).map (·.1)), mappingFaults entries⟩
    | .seq | .omap | .pairs => mismatched (.list [])
    | t => ofText t (codesOf es)
  let written := es.map fun e => (e.2.1.toOutcome, e.2.2.toOutcome)
  ⟨outcome, true, some written, entries, none, codesOf es⟩

end Made

namespace Node

mutual

def made : Node → Made
  | scalar t codes => .ofScalar t codes
  | sequence t items => .ofSequence t (madeItems items)
  | mapping t entries => .ofMapping t (madeEntries entries)
  | enclosing isMapping => ⟨⟨.enclosing isMapping, []⟩, isMapping, none, some [], none, none⟩

def madeItems : List Node → List Made
  | [] => []
  | n :: ns => n.made :: madeItems ns

def madeEntries : List (Node × Node) → List (Node × Made × Made)
  | [] => []
  | (k, v) :: es => (k, k.made, v.made) :: madeEntries es

end

def value (n : Node) : Except Fault Data :=
  match n.made.faults.first? with
  | some f => .error f
  | none => .ok n.made.value

end Node

/-- The value of a text, which is null when it holds no document. Whatever is malformed anywhere in it
counts before what cannot be turned into a value. -/
def read (s : String) : Except Fault Data := do
  let cs := s.toList
  if !cs.all isPrintable then throw .malformed
  match ← Node.ofTokens (Token.read cs) with
  | some n => n.value
  | none => .ok .null

end ApiScaffold.Yaml
