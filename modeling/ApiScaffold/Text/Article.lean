import ApiScaffold.Text.Character
import ApiScaffold.Text.Cut
import ApiScaffold.Text.Word

namespace ApiScaffold.Text

def fold (c : Char) : Char :=
  if c = 'ſ' then 's' else if c = 'ı' ∨ c = 'İ' then 'i' else if c = '\u212a' then 'k' else c.toLower

abbrev Cell := Char → Bool

def only (c : Char) : Cell := fun d => c == d

def among (cs : String) : Cell := fun d => cs.toList.contains d

def besides (cs : String) : Cell := fun d => !cs.toList.contains d

def between (a b : Char) : Cell := fun d => a ≤ d && d ≤ b

def spelled (s : String) : List Cell := s.toList.map only

def opens : List Cell → List Char → Bool
  | [], _ => true
  | _ :: _, [] => false
  | p :: ps, c :: cs => p c && opens ps cs

def opensWithAny (words : List String) (cs : List Char) : Bool :=
  words.any fun w => opens (spelled w) cs

def endsAfter (w : String) (cs : List Char) : Bool :=
  match stripLead? w.toList cs with
  | some [] => true
  | some (c :: _) => !isWordChar c
  | none => false

def saidWithVowel : Cell := among "aefhilmnorsx"

def saidWithConsonant : Cell := among "bcdgjkpqtuvwyz"

def ordinal (letter : Cell) (cs : List Char) : Bool :=
  opens (letter :: spelled "th") cs || opens (letter :: spelled "-th") cs

def single (letter : Cell) : List Char → Bool
  | [c] => letter c
  | _ => false

/-- Openings in capitals that are read as words and not letter by letter. -/
def readAsWord (cs : List Char) : Bool :=
  opensWithAny ["FJO", "SQU"] cs || opens [among "HLMNS", only 'Y', besides "\n"] cs ||
    opens [only 'R', only 'Y', among "EO"] cs ||
    (["F", "FL", "FR", "H", "L", "M", "MN", "N", "R", "RH", "S", "SC", "SH", "SK", "SL", "SM", "SN",
      "SP", "ST", "SV", "SW", "X", "XYL"].any fun w => opens (spelled w ++ [among "AEIOU"]) cs)

def spelledOut (cs : List Char) : Bool :=
  !readAsWord cs && opens [among "FHLMNRSX", between 'A' 'Z'] cs

/-- Tests in order with their article; `w` is the word as written and `f` the same in small letters. -/
def articleRules : List ((List Char → List Char → Bool) × String) := [
  (fun _ f => ordinal saidWithConsonant f, "a"),
  (fun _ f => ordinal saidWithVowel f, "an"),
  (fun _ f => opensWithAny ["euler", "heir", "honest", "honou", "honor", "mpeg"] f ||
      opensWithAny ["hour"] f && !opensWithAny ["houri"] f, "an"),
  (fun _ f => single saidWithVowel f, "an"),
  (fun _ f => single saidWithConsonant f, "a"),
  (fun w _ => spelledOut w, "an"),
  (fun _ f => opens [saidWithVowel, among ".-"] f, "an"),
  (fun _ f => opens [between 'a' 'z', among ".-"] f, "a"),
  (fun _ f => opens [besides "aeiouy"] f, "a"),
  (fun _ f => opens [only 'e', among "uw"] f, "a"),
  (fun _ f => endsAfter "one" f || endsAfter "once" f || endsAfter "onetime" f, "a"),
  (fun _ f => opens (spelled "uni" ++ [besides "nmd"]) f || opensWithAny ["unimo", "ukr"] f, "a"),
  (fun _ f => opens [only 'u', among "bcfghjkqrst", among "aeiou"] f, "a"),
  (fun _ f => opensWithAny ["unabomber", "unanimous", "us"] f, "a"),
  (fun w _ => opens [only 'U', among "NK"] w, "a"),
  (fun _ f => opens [among "aeiou"] f, "an"),
  (fun _ f => opensWithAny ["ybl", "ybo", "ybr", "ycle", "ycla", "yfere", "ygg", "ypi", "ypo",
      "yps", "yrou", "ytt"] f, "an")]

def article (w : List Char) : String :=
  match articleRules.find? fun r => r.1 w (w.map fold) with
  | some r => r.2
  | none => "a"

def wordWithin? (cs : List Char) : Option (List Char × List Char) :=
  let w := beforeBlanks cs
  if w.isEmpty || w.contains '\n' then none else some (w, cs.drop w.length)

/-- What follows a leading article, most blanks taken away first. -/
def afterArticle : List Char → List (List Char)
  | [] => []
  | c :: cs =>
    let rest := match cs with
      | d :: ds => if fold d = 'n' then ds else cs
      | [] => []
    if fold c = 'a' then
      let blanks := (rest.takeWhile isBlank).length
      (List.range blanks).reverse.map fun k => rest.drop (k + 1)
    else []

def phrases (cs : List Char) : List (List Char × List Char) :=
  (List.range ((cs.takeWhile isBlank).length + 1)).reverse.flatMap fun k =>
    (afterArticle (cs.drop k) ++ [cs.drop k]).map fun r => (cs.take k, r)

/-- The phrase with its article; nothing when no word stands on a line of its own. -/
def withArticle (s : String) : String :=
  let found := (phrases s.toList).findSome? fun (lead, r) =>
    (wordWithin? r).map fun (w, trail) => (lead, w, trail)
  match found with
  | some (lead, w, trail) => .ofList (lead ++ (article w).toList ++ ' ' :: w ++ trail)
  | none => ""

def counted (noun : String) (n : Nat) : String := if n = 1 then noun else noun ++ "s"

end ApiScaffold.Text
