import ApiScaffold.Calendar
import ApiScaffold.Text.Character
import ApiScaffold.Yaml.Character

namespace ApiScaffold.Yaml.Timestamp

structure Time where
  hour : List Char
  minute : List Char
  second : List Char
  fraction : List Char
  /-- How many seconds the clock is ahead of universal time, if that is written. -/
  offset : Option Int

structure Parts where
  year : List Char
  month : List Char
  day : List Char
  time : Option Time

def isDigit (c : Char) : Bool := '0' ≤ c && c ≤ '9'

def digits? (least most : Nat) (cs : List Char) : Option (List Char × List Char) :=
  let ds := (cs.take most).takeWhile isDigit
  if ds.length < least then none else some (ds, cs.drop ds.length)

def after? (c : Char) : List Char → Option (List Char)
  | d :: cs => if c = d then some cs else none
  | [] => none

def offset? (sign : Int) (cs : List Char) : Option Int := do
  let (h, r) ← digits? 1 2 cs
  let hours := 3600 * Text.digitsValue h
  match r with
  | [] => some (sign * hours)
  | r => do
    let (m, r) ← digits? 2 2 (← after? ':' r)
    if r.isEmpty then some (sign * (hours + 60 * Text.digitsValue m : Nat)) else none

def zone? (cs : List Char) : Option (Option Int) :=
  match cs.dropWhile isSpacing with
  | [] => if cs.isEmpty then some none else none
  | ['Z'] => some (some 0)
  | '+' :: r => (offset? 1 r).map some
  | '-' :: r => (offset? (-1) r).map some
  | _ => none

def time? (cs : List Char) : Option Time := do
  let (hour, r) ← digits? 1 2 cs
  let (minute, r) ← digits? 2 2 (← after? ':' r)
  let (second, r) ← digits? 2 2 (← after? ':' r)
  let (fraction, r) := match r with
    | '.' :: r => (r.takeWhile isDigit, r.dropWhile isDigit)
    | r => ([], r)
  some ⟨hour, minute, second, fraction, ← zone? r⟩

def parts? (cs : List Char) : Option Parts := do
  let (year, r) ← digits? 4 4 cs
  let (month, r) ← digits? 1 2 (← after? '-' r)
  let (day, r) ← digits? 1 2 (← after? '-' r)
  match r with
  | [] => some ⟨year, month, day, none⟩
  | c :: r =>
    if c = 'T' ∨ c = 't' then some ⟨year, month, day, ← time? r⟩
    else if isSpacing c then some ⟨year, month, day, ← time? (r.dropWhile isSpacing)⟩
    else none

/-- Whether a text without quotes is a timestamp: a date alone has two digits for month and day. -/
def isPlain (cs : List Char) : Bool :=
  match parts? cs with
  | some p => p.time.isSome || p.month.length = 2 && p.day.length = 2
  | none => false

def micro (fraction : List Char) : Nat :=
  let ds := fraction.take 6
  Text.digitsValue ds * Nat.pow 10 (6 - ds.length)

def Parts.value (p : Parts) : Except Calendar.Fault (Date ⊕ Moment) :=
  let number := Text.digitsValue
  match p.time with
  | none => (Date.of (number p.year) (number p.month) (number p.day)).map .inl
  | some t => (Moment.of (number p.year) (number p.month) (number p.day) (number t.hour)
      (number t.minute) (number t.second) (micro t.fraction) t.offset).map .inr

end ApiScaffold.Yaml.Timestamp
