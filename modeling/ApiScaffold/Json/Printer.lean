import ApiScaffold.Data
import ApiScaffold.Spelled

namespace ApiScaffold.Json

def units (n : Nat) : List Nat :=
  if n < 0x10000 then [n]
  else [0xd800 + (n - 0x10000) / 0x400, 0xdc00 + (n - 0x10000) % 0x400]

def unitEscape (n : Nat) : List Char := '\\' :: 'u' :: Text.hex 4 n

def escape (c : Char) : List Char :=
  if c = '"' then ['\\', '"']
  else if c = '\\' then ['\\', '\\']
  else if c = '\n' then ['\\', 'n']
  else if c = '\r' then ['\\', 'r']
  else if c = '\t' then ['\\', 't']
  else if c = '\x0c' then ['\\', 'f']
  else if c = '\x08' then ['\\', 'b']
  else if 0x20 ≤ c.toNat ∧ c.toNat < 0x7f then [c]
  else (units c.toNat).flatMap unitEscape

/-- A text by its code points, of which half of a surrogate pair is a unit of its own. -/
def quoteCodes (codes : List Nat) : String :=
  .ofList ('"' :: codes.flatMap (fun n => if Text.isHalf n then unitEscape n else escape (Char.ofNat n)) ++ ['"'])

def quote (s : String) : String := .ofList ('"' :: s.toList.flatMap escape ++ ['"'])

end ApiScaffold.Json

namespace ApiScaffold

namespace Number

def json : Number → String
  | .float (.infinite s) => if s then "-Infinity" else "Infinity"
  | n => n.text

end Number

namespace Data

/-- A key, where one that is no text is written as JSON writes its value. -/
def keyJson : Data → String
  | str s => Json.quote s
  | halved codes => Json.quoteCodes codes
  | null => Json.quote "null"
  | bool b => Json.quote (if b then "true" else "false")
  | number n => Json.quote n.json
  | nan => Json.quote "NaN"
  | d => Json.quote d.literal

mutual

def json : Data → String
  | null => "null"
  | bool b => if b then "true" else "false"
  | number n => n.json
  | nan => "NaN"
  | str s => Json.quote s
  | halved codes => Json.quoteCodes codes
  | list items => "[" ++ ", ".intercalate (jsons items) ++ "]"
  | mapping entries => "\x7b" ++ ", ".intercalate (entryJsons entries) ++ "\x7d"
  | d => Json.quote d.literal

def jsons : List Data → List String
  | [] => []
  | d :: ds => json d :: jsons ds

def entryJsons : List (Data × Data) → List String
  | [] => []
  | (k, v) :: es => (keyJson k ++ ": " ++ json v) :: entryJsons es

end

end Data

end ApiScaffold
