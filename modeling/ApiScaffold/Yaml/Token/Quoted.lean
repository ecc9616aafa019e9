import ApiScaffold.Text.Character
import ApiScaffold.Yaml.Character

namespace ApiScaffold.Yaml.Quoted

def escapes : List (Char × Nat) := [
  ('0', 0), ('a', 7), ('b', 8), ('t', 9), ('\t', 9), ('n', 10), ('v', 11), ('f', 12), ('r', 13),
  ('e', 27), (' ', 32), ('"', 34), ('/', 47), ('\\', 92), ('N', 0x85), ('_', 0xa0), ('L', 0x2028),
  ('P', 0x2029)]

def codeLengths : List (Char × Nat) := [('x', 2), ('u', 4), ('U', 8)]

def hexValue (ds : List Char) : Nat := ds.foldl (fun n d => 16 * n + (Text.hexDigit? d).getD 0) 0

def codePoint (code : Nat) : Except Fault Nat :=
  if 0x110000 ≤ code then .error (.refused (.noCharacter code)) else .ok code

def breaks (lineStart : Bool) : List Char → Except Fault (List Char × List Char)
  | [] => .ok ([], [])
  | c :: cs =>
    if lineStart && markNext (c :: cs) then .error .malformed
    else if isSpacing c then breaks false cs
    else if isBreak c then (breaks true cs).map fun r => (breakText c :: r.1, r.2)
    else .ok ([], c :: cs)

def gap (cs : List Char) : Except Fault (List Char × List Char) :=
  match cs.dropWhile isSpacing with
  | [] => .error .malformed
  | c :: r =>
    if isBreak c then
      (breaks true r).map fun (bs, rest) =>
        (if breakText c ≠ '\n' then breakText c :: bs else if bs.isEmpty then [' '] else bs, rest)
    else .ok (cs.takeWhile isSpacing, c :: r)

def codesOf (found : List Char × List Char) : List Nat × List Char := (found.1.map Char.toNat, found.2)

def escape : List Char → Except Fault (List Nat × List Char)
  | [] => .error .malformed
  | c :: cs =>
    match escapes.lookup c, codeLengths.lookup c with
    | some n, _ => .ok ([n], cs)
    | none, some k =>
      let ds := cs.take k
      if ds.length = k ∧ ds.all (fun d => (Text.hexDigit? d).isSome) then
        (codePoint (hexValue ds)).map fun n => ([n], cs.drop k)
      else .error .malformed
    | none, none => if isBreak c then (breaks true cs).map codesOf else .error .malformed

/-- The code points of the rest of a quoted text; `fuel` is more than its length. -/
def text (double : Bool) : Nat → List Char → Except Fault (List Nat × List Char)
  | 0, _ => .error .malformed
  | _, [] => .error .malformed
  | fuel + 1, c :: cs =>
    let go := fun (s : List Nat) (r : List Char) => (text double fuel r).map fun p => (s ++ p.1, p.2)
    if isSpacing c || isBreak c then do
      let (s, r) ← (gap (c :: cs)).map codesOf
      go s r
    else if double then
      if c == '"' then .ok ([], cs)
      else if c == '\\' then do
        let (s, r) ← escape cs
        go s r
      else go [c.toNat] cs
    else if c == '\'' then
      match cs with
      | '\'' :: r => go [c.toNat] r
      | r => .ok ([], r)
    else go [c.toNat] cs

end ApiScaffold.Yaml.Quoted
