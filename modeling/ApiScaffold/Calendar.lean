namespace ApiScaffold

inductive Calendar.Fault
  | year (n : Nat)
  | month | day | hour | minute | second
  /-- A clock a day or more apart from universal time. -/
  | offset (seconds : Int)
  deriving DecidableEq, Repr

namespace Calendar

def spanText (seconds : Int) : String :=
  let days := Int.fdiv seconds 86400
  let rest := Int.fmod seconds 86400
  let parts := (if days = 0 then [] else [s!"days={days}"]) ++
    (if rest = 0 then [] else [s!"seconds={rest}"])
  "datetime.timedelta(" ++ (if parts.isEmpty then "0" else ", ".intercalate parts) ++ ")"

def Fault.message : Fault → String
  | year n => s!"year {n} is out of range"
  | month => "month must be in 1..12"
  | day => "day is out of range for month"
  | hour => "hour must be in 0..23"
  | minute => "minute must be in 0..59"
  | second => "second must be in 0..59"
  | offset s =>
    "offset must be a timedelta strictly between -timedelta(hours=24) and timedelta(hours=24), not " ++
      spanText s ++ "."

def isLeap (year : Nat) : Bool := year % 4 = 0 && (year % 100 != 0 || year % 400 = 0)

def daysIn (year month : Nat) : Nat :=
  if month = 2 then if isLeap year then 29 else 28
  else if month = 4 ∨ month = 6 ∨ month = 9 ∨ month = 11 then 30
  else 31

end Calendar

structure Date where
  year : Nat
  month : Nat
  day : Nat
  deriving DecidableEq, Repr

namespace Date

def of (year month day : Nat) : Except Calendar.Fault Date :=
  if year = 0 ∨ 9999 < year then .error (.year year)
  else if month = 0 ∨ 12 < month then .error .month
  else if day = 0 ∨ Calendar.daysIn year month < day then .error .day
  else .ok ⟨year, month, day⟩

def parts (d : Date) : List Nat := [d.year, d.month, d.day]

def text (d : Date) : String := "datetime.date(" ++ ", ".intercalate (d.parts.map toString) ++ ")"

def count (d : Date) : Nat :=
  let before := d.year - 1
  let start := 365 * before + before / 4 - before / 100 + before / 400
  (List.range (d.month - 1)).foldl (fun n m => n + Calendar.daysIn d.year (m + 1)) start + d.day

end Date

/-- A moment; `offset` tells by how many seconds its clock is ahead of universal time, if that is known. -/
structure Moment where
  date : Date
  hour : Nat
  minute : Nat
  second : Nat
  micro : Nat
  offset : Option Int
  deriving DecidableEq, Repr

namespace Moment

def checkOffset : Option Int → Except Calendar.Fault Unit
  | some s => if s.natAbs < 86400 then .ok () else .error (.offset s)
  | none => .ok ()

def of (year month day hour minute second micro : Nat) (offset : Option Int) :
    Except Calendar.Fault Moment := do
  checkOffset offset
  let date ← Date.of year month day
  if 23 < hour then throw .hour
  if 59 < minute then throw .minute
  if 59 < second then throw .second
  .ok ⟨date, hour, minute, second, micro, offset⟩

def offsetText (s : Int) : String :=
  if s = 0 then "datetime.timezone.utc" else "datetime.timezone(" ++ Calendar.spanText s ++ ")"

def text (m : Moment) : String :=
  let fine := if m.micro ≠ 0 then [m.second, m.micro] else if m.second ≠ 0 then [m.second] else []
  let parts := (m.date.parts ++ [m.hour, m.minute] ++ fine).map toString
  let zone := match m.offset with
    | some s => ["tzinfo=" ++ offsetText s]
    | none => []
  "datetime.datetime(" ++ ", ".intercalate (parts ++ zone) ++ ")"

/-- The microseconds up to a moment by its own clock, less what that clock is ahead. -/
def count (m : Moment) : Int :=
  let seconds : Int := 86400 * m.date.count + 3600 * m.hour + 60 * m.minute + m.second - m.offset.getD 0
  1000000 * seconds + m.micro

/-- Whether two moments are one; a clock that is known agrees with none that is not. -/
def agrees (m n : Moment) : Bool := m.offset.isSome == n.offset.isSome && m.count == n.count

end Moment

end ApiScaffold
