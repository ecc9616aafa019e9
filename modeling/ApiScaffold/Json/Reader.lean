import ApiScaffold.Data
import ApiScaffold.Json.Quoted

namespace ApiScaffold.Json

def isSpace (c : Char) : Bool := c == ' ' || c == '\t' || c == '\n' || c == '\r'

def skip (cs : List Char) : List Char := cs.dropWhile isSpace

def isAsciiDigit (c : Char) : Bool := '0' ≤ c && c ≤ '9'

/-- The digits before the point: a single zero, or a row that does not begin with one. -/
def wholeDigits : List Char → List Char × List Char
  | '0' :: r => (['0'], r)
  | cs => cs.span isAsciiDigit

def fraction : List Char → List Char × List Char
  | '.' :: r =>
    match r.span isAsciiDigit with
    | ([], _) => ([], '.' :: r)
    | (fs, rest) => (fs, rest)
  | cs => ([], cs)

def signedDigits : List Char → Option (Int × List Char)
  | '-' :: r => match r.span isAsciiDigit with
    | ([], _) => none
    | (ds, rest) => some (-(Text.digitsValue ds : Int), rest)
  | r => match (match r with | '+' :: t => t | t => t).span isAsciiDigit with
    | ([], _) => none
    | (ds, rest) => some (Text.digitsValue ds, rest)

def power? : List Char → Option (Int × List Char)
  | c :: r => if c = 'e' ∨ c = 'E' then signedDigits r else none
  | [] => none

def readMagnitude (negative : Bool) (cs : List Char) : Option (Except Fault (Number × List Char)) :=
  match wholeDigits cs with
  | ([], _) => none
  | (ds, r) =>
    let (fs, r') := fraction r
    let all := Text.digitsValue (ds ++ fs)
    match power? r' with
    | some (e, r'') => some (.ok (.float (.ofDecimal negative all (e - fs.length)), r''))
    | none =>
      if fs.isEmpty then
        if Failure.digitLimit < ds.length then some (.error (.longNumeral ds.length))
        else some (.ok (.int (if negative then -(all : Int) else all), r'))
      else some (.ok (.float (.ofDecimal negative all (-fs.length)), r'))

def readNumber : List Char → Option (Except Fault (Number × List Char))
  | '-' :: r => readMagnitude true r
  | cs => readMagnitude false cs

def words : List (String × Data) := [
  ("null", .null), ("true", .bool true), ("false", .bool false), ("NaN", .nan),
  ("Infinity", .number (.float (.infinite false))),
  ("-Infinity", .number (.float (.infinite true)))]

def readScalar (cs : List Char) : Except Fault (Data × List Char) :=
  match words.findSome? fun w => (Text.stripLead? w.1.toList cs).map fun r => (w.2, r) with
  | some found => .ok found
  | none =>
    match readNumber cs with
    | some step => step.map fun p => (.number p.1, p.2)
    | none => fail .value cs

mutual

def readValue : Nat → List Char → Except Fault (Data × List Char)
  | 0, cs => fail .value cs
  | fuel + 1, cs =>
    match cs with
    | '"' :: r => (readText r).map fun p => (.ofCodes p.1, p.2)
    | '[' :: r =>
      match skip r with
      | ']' :: r => .ok (.list [], r)
      | r => (readItems fuel r).map fun p => (.list p.1, p.2)
    | '\x7b' :: r =>
      match skip r with
      | '\x7d' :: r => .ok (.mapping [], r)
      | r => (readEntries fuel r).map fun p => (.mapping p.1, p.2)
    | cs => readScalar cs

def readItems : Nat → List Char → Except Fault (List Data × List Char)
  | 0, cs => fail .value cs
  | fuel + 1, cs => do
    let (v, r) ← readValue fuel cs
    match skip r with
    | ',' :: r => (readItems fuel (skip r)).map fun p => (v :: p.1, p.2)
    | ']' :: r => .ok ([v], r)
    | r => fail .comma r

def readEntries : Nat → List Char → Except Fault (List (Data × Data) × List Char)
  | 0, cs => fail .value cs
  | fuel + 1, cs =>
    match cs with
    | '"' :: r => do
      let (k, r) ← readText r
      match skip r with
      | ':' :: r =>
        let (v, r) ← readValue fuel (skip r)
        match skip r with
        | ',' :: r => (readEntries fuel (skip r)).map fun p => ((.ofCodes k, v) :: p.1, p.2)
        | '\x7d' :: r => .ok ([(.ofCodes k, v)], r)
        | r => fail .comma r
      | r => fail .colon r
    | cs => fail .key cs

end

def readWhole (cs : List Char) : Except Fault Data := do
  if cs.head? = some '\ufeff' then fail .mark cs
  else
    let (v, r) ← readValue (cs.length + 1) (skip cs)
    if (skip r).isEmpty then .ok v else fail .extra (skip r)

def read (s : String) : Except Fault Data := readWhole s.toList

def read? (s : String) : Option Data := (read s).toOption

end ApiScaffold.Json
