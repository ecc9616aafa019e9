import ApiScaffold.Decimal.Number
import ApiScaffold.Text.Utf8
import ApiScaffold.Yaml.Token

namespace ApiScaffold.Yaml.Property

def name (cs : List Char) : Except Fault (List Char × List Char) :=
  match cs.takeWhile isNameChar with
  | [] => .error .malformed
  | ds => .ok (ds, cs.dropWhile isNameChar)

def nameEnds (cs : List Char) : Bool := gapNext cs || "?:,]\x7d%@\x60".toList.contains (cs.headD ' ')

def anchor (cs : List Char) : Except Fault (String × List Char) := do
  let (ds, r) ← name cs
  if nameEnds r then .ok (.ofList ds, r) else .error .malformed

def handle : List Char → Except Fault (List Char × List Char)
  | '!' :: cs =>
    if cs.head? == some ' ' then .ok (['!'], cs)
    else
      match cs.dropWhile isNameChar with
      | '!' :: r => .ok ('!' :: cs.takeWhile isNameChar ++ ['!'], r)
      | _ => .error .malformed
  | _ => .error .malformed

def isTagChar (c : Char) : Bool := isNameChar c || ";/?:@&=+$,.!~*'()[]".toList.contains c

def escapedBytes : List Char → Except Fault (List UInt8 × List Char)
  | '%' :: a :: b :: cs =>
    match Text.hexDigit? a, Text.hexDigit? b with
    | some m, some n => (escapedBytes cs).map fun r => ((16 * m + n).toUInt8 :: r.1, r.2)
    | _, _ => .error .malformed
  | '%' :: _ => .error .malformed
  | cs => .ok ([], cs)

def escaped (cs : List Char) : Except Fault (List Char × List Char) := do
  let (bs, r) ← escapedBytes cs
  match Text.Utf8.decode bs with
  | .ok s => .ok (s.toList, r)
  | .error _ => .error .malformed

/-- The characters of a tag; `fuel` is at least their number. -/
def tagChars : Nat → List Char → Except Fault (List Char × List Char)
  | 0, cs => .ok ([], cs)
  | _, [] => .ok ([], [])
  | fuel + 1, c :: cs =>
    if c == '%' then do
      let (s, r) ← escaped (c :: cs)
      (tagChars fuel r).map fun p => (s ++ p.1, p.2)
    else if isTagChar c then (tagChars fuel cs).map fun p => (c :: p.1, p.2)
    else .ok ([], c :: cs)

def tagName (cs : List Char) : Except Fault (String × List Char) := do
  let (ds, r) ← tagChars cs.length cs
  if r.length = cs.length then .error .malformed else .ok (.ofList ds, r)

def hasHandle (cs : List Char) : Bool :=
  (cs.takeWhile fun c => !(c == ' ' || isBreak c)).contains '!'

def tag (cs : List Char) : Except Fault (Token × List Char) := do
  let (t, r) ← match cs with
    | '<' :: r => do
      let (suffix, r) ← tagName r
      match r with
      | '>' :: r => pure (Token.tag none suffix, r)
      | _ => throw .malformed
    | cs =>
      if gapNext cs then pure (Token.tag none "!", cs)
      else do
        let (h, r) ← if hasHandle cs then handle ('!' :: cs) else pure (['!'], cs)
        let (suffix, r) ← tagName r
        pure (Token.tag (some (.ofList h)) suffix, r)
  if wordEnds r then .ok (t, r) else .error .malformed

def number (cs : List Char) : Except Fault (Nat × List Char) :=
  let isDigit := fun (c : Char) => '0' ≤ c && c ≤ '9'
  match cs.takeWhile isDigit with
  | [] => .error .malformed
  | ds =>
    match Number.wholeOf ds with
    | .ok n => .ok (n, cs.dropWhile isDigit)
    | .error f => .error (.refused f)

def version (cs : List Char) : Except Fault (Directive × List Char) := do
  let (major, r) ← number (dropSpaces cs)
  match r with
  | '.' :: r =>
    let (_, r) ← number r
    if wordEnds r then .ok (.version major, r) else .error .malformed
  | _ => .error .malformed

def handleNamed (cs : List Char) : Except Fault (Directive × List Char) := do
  let (h, r) ← handle (dropSpaces cs)
  if r.head? ≠ some ' ' then throw .malformed
  let (n, r) ← tagName (dropSpaces r)
  if wordEnds r then .ok (.handle (.ofList h) n, r) else .error .malformed

def directive (cs : List Char) : Except Fault (Directive × List Char) := do
  let (n, r) ← name cs
  if !wordEnds r then throw .malformed
  let (d, r) ← match String.ofList n with
    | "YAML" => version r
    | "TAG" => handleNamed r
    | _ => pure (.unknown, r.dropWhile fun c => !isBreak c)
  match dropComment (dropSpaces r) with
  | [] => .ok (d, [])
  | c :: r => if isBreak c then .ok (d, r) else .error .malformed

end ApiScaffold.Yaml.Property
