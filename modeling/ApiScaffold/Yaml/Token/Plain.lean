import ApiScaffold.Yaml.Token

namespace ApiScaffold.Yaml.Plain

def flowIndicators : List Char := ",[]\x7b\x7d".toList

def indicators : List Char := "-?:,[]\x7b\x7d#&*!|>'\"%@\x60".toList

def mayBegin (inFlow : Bool) (cs : List Char) : Bool :=
  match cs with
  | [] => false
  | c :: r =>
    !gapNext cs && !indicators.contains c ||
      !gapNext r && (c == '-' || !inFlow && (c == '?' || c == ':'))

def colonEnds (inFlow : Bool) (cs : List Char) : Bool :=
  gapNext cs || inFlow && flowIndicators.contains (cs.headD ' ')

def stretch (inFlow : Bool) : List Char → List Char
  | [] => []
  | c :: cs =>
    if gapNext (c :: cs) || c == ':' && colonEnds inFlow cs ||
        inFlow && (c == '?' || flowIndicators.contains c) then []
    else c :: stretch inFlow cs

def moreBreaks : List Char → Option (List Char) × List Char
  | [] => (some [], [])
  | c :: cs =>
    if c == ' ' then moreBreaks cs
    else if isBreak c then
      if markNext cs then (none, cs)
      else
        let r := moreBreaks cs
        (r.1.map (breakText c :: ·), r.2)
    else (some [], c :: cs)

/-- What a gap between two stretches counts as, which is nothing where the scalar ends; whether it holds a
line break, and what follows it. -/
structure Gap where
  text : List Char
  broken : Bool
  rest : List Char

def folded (c : Char) (more : List Char) : List Char :=
  if breakText c ≠ '\n' then breakText c :: more else if more.isEmpty then [' '] else more

def gap (cs : List Char) : Gap :=
  match dropSpaces cs with
  | [] => ⟨cs, false, []⟩
  | c :: r =>
    if isBreak c then
      if markNext r then ⟨[], true, r⟩
      else
        match moreBreaks r with
        | (some bs, rest) => ⟨folded c bs, true, rest⟩
        | (none, rest) => ⟨[], true, rest⟩
    else ⟨cs.takeWhile (· == ' '), false, c :: r⟩

/-- The text of a scalar whose lines are indented to `indent` or deeper, the place after it, and whether a
line break is the last that was read; `fuel` is at least the length of the rest. -/
def text (inFlow : Bool) (indent : Int) : Nat → Cursor → List Char × Cursor × Bool
  | 0, k => ([], k, false)
  | fuel + 1, k =>
    let s := stretch inFlow k.rest
    let after := k.skip s.length
    let g := gap after.rest
    let next := after.upTo g.rest
    if g.text.isEmpty || g.rest.head? == some '#' || !inFlow && next.column < indent ||
        (stretch inFlow g.rest).isEmpty then (s, next, g.broken)
    else
      let r := text inFlow indent fuel next
      (s ++ g.text ++ r.1, r.2)

end ApiScaffold.Yaml.Plain
