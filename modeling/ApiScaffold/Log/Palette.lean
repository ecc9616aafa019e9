import ApiScaffold.Log.Format
import ApiScaffold.Text.Character

namespace ApiScaffold

namespace Log

def code (n : String) : String := "\x1b[" ++ n ++ "m"

def reset : String := code "0"

def bold : String := code "1"

def gravest : List (Level × String) := [(.warning, code "33"), (.error, code "31"), (.critical, code "35")]

def markerColour : Marker → String
  | .success => code "92" ++ bold
  | .progress => code "94"
  | .highlight => code "96"

/-- A rule of at least ten signs, or a title in capitals. -/
def isHeader (message : String) : Bool :=
  let cs := Text.strip message.toList
  (cs.take 10 == List.replicate 10 '=') || (Text.isCapitalised cs && 3 < cs.length)

def colour? (r : Record) : Option String :=
  if Level.warning ≤ r.level then (gravest.find? fun p => p.1 = r.level).map (·.2)
  else
    match Marker.all.find? fun m => r.message.toList.head? = some m.sign with
    | some m => some (markerColour m)
    | none =>
      if isHeader r.message then some (bold ++ markerColour .highlight)
      else if r.level = Level.debug then some (code "36")
      else none

def painted (f : Format) (r : Record) : String :=
  match colour? r with
  | some c => c ++ f.line r ++ reset
  | none => f.line r

def line (f : Format) (colours : Bool) (r : Record) : String :=
  if colours then painted f r else f.line r

end Log

end ApiScaffold
