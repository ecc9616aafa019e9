import ApiScaffold.Field.Basic
import ApiScaffold.Field.Validator
import ApiScaffold.Identifier
import ApiScaffold.Json.Printer
import ApiScaffold.Keyed

namespace ApiScaffold

inductive Sample
  | text (s : String)
  | number (n : Number)
  | yes
  | nothing
  deriving DecidableEq, Repr

namespace Sample

def data : Sample → Data
  | text s => .str s
  | number n => .number n
  | yes => .bool true
  | nothing => .null

def json (s : Sample) : String := s.data.json

def ofKind (k : FieldKind) (name : String) : Sample :=
  match k with
  | .string => text ("sample_" ++ name)
  | .number => number (.int 123)
  | .boolean => yes
  | .unknown => nothing

def email : Sample := text "test@example.com"

def widest : Int := Nat.pow 2 63 - 1

def pad (s : String) (width : Int) : Except Failure String :=
  if widest < width then .error .wideWidth
  else .ok (s ++ .ofList (List.replicate (width.toNat - s.length) 'x'))

/-- Pads a text up to a lower bound, or cuts it down to an upper one; fractions round outward. -/
def fitText (s : String) (key : BoundKey) (limit : Number) : Except Failure String :=
  let length := Number.int s.length
  if key.isLower then
    if length.lt limit then limit.ceil >>= pad s else .ok s
  else if limit.lt length then limit.floor.map fun n => .ofList (s.toList.take n.toNat)
  else .ok s

def fitNumber (n : Number) (key : BoundKey) (limit : Number) : Number :=
  if key.isLower then if n.lt limit then limit else n
  else if limit.lt n then limit else n

def fit (key : BoundKey) (limit : Number) : Sample → Except Failure Sample
  | text s => (fitText s key limit).map text
  | number n => .ok (number (fitNumber n key limit))
  | s => .ok s

end Sample

structure Mapping where
  field : Field
  rule : Rule
  /-- The kind in every view; an enumeration makes it `string`. -/
  kind : FieldKind
  validator : Validator
  sample : Sample
  deriving DecidableEq, Repr

namespace Mapping

def name (m : Mapping) : String := m.field.name

def kindFor (r : Rule) (k : FieldKind) : FieldKind :=
  match r.kind with
  | .oneOf _ => .string
  | _ => k

def sampleFor (r : Rule) (k : FieldKind) (name : String) : Except Failure Sample :=
  if r.appliesTo (.ofKind k) then
    match r.kind with
    | .oneOf ls => .ok (.text (ls.headD ""))
    | .email => .ok .email
    | .bound key limit => (Sample.ofKind k name).fit key limit
    | .absent | .unknown => .ok (.ofKind k name)
  else .ok (.ofKind k name)

def ofField (f : Field) : Except Failure Mapping := do
  let k := FieldKind.ofToken f.typeName
  let r ← Rule.read f.rule
  let s ← sampleFor r k f.name
  .ok ⟨f, r, kindFor r k, r.compile (.ofKind k), s⟩

def ofFields (fs : List Field) : Except Failure (List Mapping) := fs.mapM ofField

def key (m : Mapping) : String := Identifier.key m.name

def member (m : Mapping) : String := Identifier.member m.name

def schemaLines (indent : String) (ms : List Mapping) : List String :=
  ["z.object(\x7b"] ++ ms.map (fun m => indent ++ m.key ++ ": " ++ m.validator.text ++ ",") ++ ["\x7d)"]

def schema (indent : String) (ms : List Mapping) : String := "\n".intercalate (schemaLines indent ms)

/-- The sample request body as an object, where a repeated name keeps its last value. -/
def payload (ms : List Mapping) : List (String × Sample) :=
  Keyed.ofPairs (ms.map fun m => (m.name, m.sample))

def members (ms : List Mapping) : List (Data × Data) := ms.map fun m => (.str m.name, m.sample.data)

def sampleJson (ms : List Mapping) : String := (Data.mapping (members ms)).json

end Mapping

end ApiScaffold
