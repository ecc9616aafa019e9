import ApiScaffold.Calendar
import ApiScaffold.Report
import ApiScaffold.Text.Literal

namespace ApiScaffold

inductive Failure
  | reported (r : Report)
  /-- A whole number of more than 4300 digits. -/
  | longNumeral (digits : Nat)
  /-- A whole number of more than 4300 digits that would have to be written. -/
  | unwritable
  /-- A text that is no whole number in a base. -/
  | noWhole (base : Nat) (text : String)
  /-- A text that is no decimal fraction. -/
  | noFraction (text : String)
  /-- A numeral without any character. -/
  | emptyNumeral
  /-- A word that is neither true nor false. -/
  | noTruth (word : String)
  /-- A text that is no date. -/
  | noDate
  | badDate (f : Calendar.Fault)
  /-- A code point beyond the last one. -/
  | noCharacter (code : Nat)
  /-- A text cannot be fitted to an infinite width. -/
  | infiniteWidth
  /-- A width that no text can have. -/
  | wideWidth
  /-- Bytes from `start` on that are no UTF-8. -/
  | undecodable (start : Nat) (bytes : List UInt8) (reason : String)
  /-- Code points from `start` on that UTF-8 has no code for. -/
  | unencodable (start : Nat) (codes : List Nat)
  | fileExists (path : String)
  | notADirectory (path : String)
  | isADirectory (path : String)
  | notFound (path : String)
  /-- A path, or one part of it, that is longer than the system takes. -/
  | nameTooLong (path : String)
  /-- A path with a null character in it. -/
  | nullInPath
  /-- There is no article for an empty phrase. -/
  | noPhrase (found : String)
  /-- A name was expected and a value of another kind was found. -/
  | notText (found : String)
  | notMatchable (found : String)
  | noJson (found : String)
  | notIterable (found : String)
  | notCallable (found : String)
  deriving DecidableEq, Repr

namespace Failure

def digitLimit : Nat := 4300

def bytePlace (start : Nat) : List UInt8 → String
  | [b] => s!"byte 0x{String.ofList (Text.hex 2 b.toNat)} in position {start}"
  | bs => s!"bytes in position {start}-{start + bs.length - 1}"

def codePlace (start : Nat) : List Nat → String
  | [n] =>
    let shown := String.ofList (Text.escapeCode n)
    s!"character '{shown}' in position {start}"
  | ns => s!"characters in position {start}-{start + ns.length - 1}"

def shortLiteral (s : String) : String := .ofList ((Text.literal s).toList.take 200)

def isSystem : Failure → Bool
  | fileExists _ | notADirectory _ | isADirectory _ | notFound _ | nameTooLong _ => true
  | _ => false

def message : Failure → String
  | reported r => r.message
  | longNumeral n =>
    s!"Exceeds the limit ({digitLimit} digits) for integer string conversion: value has {n} digits; " ++
      "use sys.set_int_max_str_digits() to increase the limit"
  | unwritable =>
    s!"Exceeds the limit ({digitLimit} digits) for integer string conversion; " ++
      "use sys.set_int_max_str_digits() to increase the limit"
  | noWhole base text => s!"invalid literal for int() with base {base}: " ++ shortLiteral text
  | noFraction text => "could not convert string to float: " ++ Text.literal text
  | emptyNumeral => "string index out of range"
  | noTruth word => Text.literal word
  | noDate => "'NoneType' object has no attribute 'groupdict'"
  | badDate f => f.message
  | noCharacter code =>
    if code < Nat.pow 2 31 then "chr() arg not in range(0x110000)"
    else "Python int too large to convert to C int"
  | infiniteWidth => "cannot convert float infinity to integer"
  | wideWidth => "Python int too large to convert to C ssize_t"
  | undecodable start bytes reason =>
    s!"'utf-8' codec can't decode {bytePlace start bytes}: {reason}"
  | unencodable start codes =>
    s!"'utf-8' codec can't encode {codePlace start codes}: surrogates not allowed"
  | fileExists path => "[Errno 17] File exists: " ++ Text.literal path
  | notADirectory path => "[Errno 20] Not a directory: " ++ Text.literal path
  | isADirectory path => "[Errno 21] Is a directory: " ++ Text.literal path
  | notFound path => "[Errno 2] No such file or directory: " ++ Text.literal path
  | nameTooLong path => "[Errno 36] File name too long: " ++ Text.literal path
  | nullInPath => "embedded null byte"
  | noPhrase found => s!"argument \"text\" ({found}) is not an instance of inflect.Word"
  | notText found => s!"Expected string, got {found}"
  | notMatchable found => s!"expected string or bytes-like object, got '{found}'"
  | noJson found => s!"Object of type {found} is not JSON serializable"
  | notIterable found => s!"'{found}' object is not iterable"
  | notCallable found => s!"'{found}' object is not callable"

end Failure

end ApiScaffold
