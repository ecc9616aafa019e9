import ApiScaffold.Yaml.Character

namespace ApiScaffold.Yaml

structure Cursor where
  rest : List Char
  index : Nat
  line : Nat
  column : Nat

namespace Cursor

def start (cs : List Char) : Cursor := ⟨cs, 0, 0, 0⟩

def step (k : Cursor) : Cursor :=
  match k.rest with
  | [] => k
  | c :: cs =>
    if isBreak c then ⟨cs, k.index + 1, k.line + 1, 0⟩
    else ⟨cs, k.index + 1, k.line, if c = byteOrderMark then k.column else k.column + 1⟩

def skip (k : Cursor) : Nat → Cursor
  | 0 => k
  | n + 1 => skip k.step n

/-- The place at which `rest`, an end of what was to be read, begins. -/
def upTo (k : Cursor) (rest : List Char) : Cursor := k.skip (k.rest.length - rest.length)

end Cursor

inductive Directive
  | version (major : Nat)
  /-- The name that a handle before a tag stands for. -/
  | handle (handle name : String)
  | unknown
  deriving DecidableEq, Repr

inductive Token
  | directive (d : Directive)
  | documentStart | documentEnd
  | blockSequence | blockMapping | blockEnd
  | sequenceStart | sequenceEnd | mappingStart | mappingEnd
  | entry | item | key | value
  | alias (name : String)
  | anchor (name : String)
  | tag (handle : Option String) (suffix : String)
  | scalar (codes : List Nat) (plain : Bool)
  | streamEnd
  /-- Nothing more can be read. -/
  | stop (f : Fault)
  deriving DecidableEq, Repr

end ApiScaffold.Yaml
