import ApiScaffold.Failure

namespace ApiScaffold.Json

inductive Problem
  | value | key | colon | comma | extra | mark | unterminated | control | escape | codeEscape
  deriving DecidableEq, Repr

/-- A problem with what is left of the text where it lies, or a numeral that is too long. -/
inductive Fault
  | found (p : Problem) (rest : List Char)
  | longNumeral (digits : Nat)
  deriving DecidableEq, Repr

def Problem.message : Problem → String
  | value => "Expecting value"
  | key => "Expecting property name enclosed in double quotes"
  | colon => "Expecting ':' delimiter"
  | comma => "Expecting ',' delimiter"
  | extra => "Extra data"
  | mark => "Unexpected UTF-8 BOM (decode using utf-8-sig)"
  | unterminated => "Unterminated string starting at"
  | control => "Invalid control character at"
  | escape => "Invalid \\escape"
  | codeEscape => "Invalid \\uXXXX escape"

def fail {α : Type} (p : Problem) (rest : List Char) : Except Fault α := .error (.found p rest)

def Fault.message (text : List Char) : Fault → String
  | found p rest =>
    let before := text.take (text.length - rest.length)
    let line := before.count '\n' + 1
    let column := (before.reverse.takeWhile (· != '\n')).length + 1
    s!"{p.message}: line {line} column {column} (char {before.length})"
  | longNumeral n => (Failure.longNumeral n).message

def hexValue? (ds : List Char) : Option Nat :=
  ds.foldlM (fun n c => (Text.hexDigit? c).map fun d => 16 * n + d) 0

def simpleEscape? (c : Char) : Option Nat :=
  if c = '"' ∨ c = '\\' ∨ c = '/' then some c.toNat
  else if c = 'b' then some 8
  else if c = 'f' then some 12
  else if c = 'n' then some 10
  else if c = 'r' then some 13
  else if c = 't' then some 9
  else none

/-- The code unit written by four digits, after which the text must go on. -/
def codeUnit? : List Char → Option (Nat × List Char)
  | a :: b :: c :: d :: e :: r => (hexValue? [a, b, c, d]).map fun u => (u, e :: r)
  | _ => none

/-- The code units of a text up to its closing quotation mark; a character counts as one unit. `opening`
is where the text began, and `fuel` is at least the number of characters. -/
def readUnits (opening : List Char) : Nat → List Char → Except Fault (List Nat × List Char)
  | 0, _ | _, [] | _, ['\\'] => fail .unterminated opening
  | _, '"' :: r => .ok ([], r)
  | fuel + 1, '\\' :: 'u' :: r =>
    match codeUnit? r with
    | some (u, r) => (readUnits opening fuel r).map fun p => (u :: p.1, p.2)
    | none => fail .codeEscape ('u' :: r)
  | fuel + 1, '\\' :: c :: r =>
    match simpleEscape? c with
    | some u => (readUnits opening fuel r).map fun p => (u :: p.1, p.2)
    | none => fail .escape ('\\' :: c :: r)
  | fuel + 1, c :: r =>
    if c.toNat < 0x20 then fail .control (c :: r)
    else (readUnits opening fuel r).map fun p => (c.toNat :: p.1, p.2)

def isHigh (u : Nat) : Bool := 0xd800 ≤ u && u < 0xdc00

def isLow (u : Nat) : Bool := 0xdc00 ≤ u && u < 0xe000

def joinPair (u v : Nat) : Nat := 0x10000 + (u - 0xd800) * 0x400 + (v - 0xdc00)

/-- Joins the two units of a character beyond U+FFFF; half of a pair alone stays. -/
def joinUnits : List Nat → List Nat
  | [] => []
  | [u] => [u]
  | u :: v :: us =>
    if isHigh u && isLow v then joinPair u v :: joinUnits us else u :: joinUnits (v :: us)

def readText (cs : List Char) : Except Fault (List Nat × List Char) :=
  (readUnits ('"' :: cs) (cs.length + 1) cs).map fun p => (joinUnits p.1, p.2)

end ApiScaffold.Json
