import ApiScaffold.Spelled

namespace ApiScaffold.Yaml

/-- Why a document cannot be read: it is malformed, or something in it cannot be turned into a value. -/
inductive Fault
  | malformed
  | refused (f : Failure)
  deriving DecidableEq, Repr

def isPrintable (c : Char) : Bool :=
  let n := c.toNat
  n == 9 || n == 10 || n == 13 || (0x20 ≤ n && n ≤ 0x7e) || n == 0x85 || (0xa0 ≤ n && n ≤ 0xd7ff) ||
    (0xe000 ≤ n && n ≤ 0xfffd) || 0x10000 ≤ n

def byteOrderMark : Char := '\ufeff'

def isBreak (c : Char) : Bool := c == '\n' || c == '\r' || c == '\x85' || c == '\u2028' || c == '\u2029'

/-- What a line break counts as; the two separators of Unicode stay what they are. -/
def breakText (c : Char) : Char := if c == '\u2028' || c == '\u2029' then c else '\n'

def isSpacing (c : Char) : Bool := c == ' ' || c == '\t'

def lineEnds : List Char → Bool
  | [] => true
  | c :: _ => isBreak c

def wordEnds : List Char → Bool
  | [] => true
  | c :: _ => c == ' ' || isBreak c

def gapNext : List Char → Bool
  | [] => true
  | c :: _ => isSpacing c || isBreak c

/-- Three dashes or three points, alone. -/
def isMark (c : Char) : List Char → Bool
  | a :: b :: d :: r => a == c && b == c && d == c && gapNext r
  | _ => false

def markNext (cs : List Char) : Bool := isMark '-' cs || isMark '.' cs

def isNameChar (c : Char) : Bool :=
  ('0' ≤ c && c ≤ '9') || ('A' ≤ c && c ≤ 'Z') || ('a' ≤ c && c ≤ 'z') || c == '-' || c == '_'

def dropSpaces (cs : List Char) : List Char := cs.dropWhile (· == ' ')

def dropComment : List Char → List Char
  | '#' :: cs => cs.dropWhile fun c => !isBreak c
  | cs => cs

end ApiScaffold.Yaml
