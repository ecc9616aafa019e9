import ApiScaffold.Spelled
import ApiScaffold.Text.Utf8

namespace ApiScaffold

inductive Content
  | text (s : String)
  | bytes (bs : List UInt8)
  deriving DecidableEq, Repr

namespace Content

def ofBytes (bs : List UInt8) : Content :=
  match Text.Utf8.decode bs with
  | .ok s => text s
  | .error _ => bytes bs

/-- Line breaks of every convention as single line feeds. -/
def unifyBreaks : List Char → List Char
  | '\r' :: '\n' :: cs => '\n' :: unifyBreaks cs
  | '\r' :: cs => '\n' :: unifyBreaks cs
  | c :: cs => c :: unifyBreaks cs
  | [] => []

def readBy (decode : List UInt8 → Except Text.Utf8.Wrong String) : Content → Except Failure String
  | text s => .ok (.ofList (unifyBreaks s.toList))
  | bytes bs =>
    match decode bs with
    | .ok s => .ok (.ofList (unifyBreaks s.toList))
    | .error w => .error (.undecodable w.place w.bytes w.fault.reason)

def read : Content → Except Failure String := readBy Text.Utf8.decode

def readInParts : Content → Except Failure String := readBy Text.Utf8.decodeInParts

def shown : Content → String
  | text s => s
  | bytes bs => Text.Utf8.shown bs

end Content

end ApiScaffold
