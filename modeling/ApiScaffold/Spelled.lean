import ApiScaffold.Failure

namespace ApiScaffold

namespace Text

/-- Whether a code point is half of a surrogate pair, which is no character. -/
def isHalf (n : Nat) : Bool := 0xd800 ≤ n && n < 0xe000

def replacement : Char := '\ufffd'

def standInStart : Nat := 0xf0000

/-- The private character that stands for half of a surrogate pair. -/
def standIn (n : Nat) : Char := Char.ofNat (standInStart + (n - 0xd800))

def shownCode (n : Nat) : Char := if isHalf n then replacement else Char.ofNat n

def codedCode (n : Nat) : Char := if isHalf n then standIn n else Char.ofNat n

def ofCodes? (codes : List Nat) : Option String :=
  if codes.any isHalf then none else some (.ofList (codes.map Char.ofNat))

def shownCodes (codes : List Nat) : String := .ofList (codes.map shownCode)

def codesLiteral (codes : List Nat) : String :=
  let q := quoteFor (codes.map shownCode)
  .ofList (q :: codes.flatMap (fun n => if isHalf n then escapeCode n else literalChar q (Char.ofNat n)) ++ [q])

end Text

/-- A value whose texts are spelled as they are, or one in two spellings. Texts that are read from escapes may have
halves of surrogate pairs in them, which no character is: there the first spelling has the replacement character and the
second a private one, and elsewhere the two agree. So they tell together which code points a text has that is made from
them. -/
inductive Spelled (α : Type)
  | plain (a : α)
  | twice (shown coded : α)
  deriving DecidableEq, Repr

namespace Spelled

variable {α β : Type}

instance : Coe α (Spelled α) := ⟨plain⟩

def shown : Spelled α → α
  | plain a | twice a _ => a

def coded : Spelled α → α
  | plain a | twice _ a => a

def map (f : α → β) : Spelled α → Spelled β
  | plain a => plain (f a)
  | twice a b => twice (f a) (f b)

def both : Spelled α → Spelled β → Spelled (α × β)
  | plain a, plain b => plain (a, b)
  | a, b => twice (a.shown, b.shown) (a.coded, b.coded)

def ofCodes (codes : List Nat) : Spelled String := twice (Text.shownCodes codes) (.ofList (codes.map Text.codedCode))

/-- The code point that two spellings of one place tell. -/
def code (a b : Char) : Nat := if a = b then a.toNat else b.toNat - Text.standInStart + 0xd800

def codes : Spelled String → List Nat
  | plain s => s.toList.map Char.toNat
  | twice s c => List.zipWith code s.toList c.toList

def told (t : Spelled String) : String :=
  .ofList (t.codes.flatMap fun n => if Text.isHalf n then Text.escapeCode n else [Char.ofNat n])

/-- The text as UTF-8 can have it, which has no code for half of a surrogate pair. -/
def encoded : Spelled String → Except Failure String
  | plain s => .ok s
  | twice s c =>
    let codes := (twice s c).codes
    match codes.findIdx? Text.isHalf with
    | none => .ok s
    | some i => .error (.unencodable i ((codes.drop i).takeWhile Text.isHalf))

end Spelled

end ApiScaffold
