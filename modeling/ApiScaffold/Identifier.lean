import ApiScaffold.Json.Printer
import ApiScaffold.Text.Letter

namespace ApiScaffold.Identifier

def reservedWords : List String := [
  "break", "case", "catch", "class", "const", "continue", "debugger", "default", "delete", "do", "else",
  "enum", "export", "extends", "false", "finally", "for", "function", "if", "import", "in",
  "instanceof", "new", "null", "return", "super", "switch", "this", "throw", "true", "try", "typeof",
  "var", "void", "while", "with", "yield", "let", "static", "implements", "interface", "package",
  "private", "protected", "public", "await"]

def isStart (c : Char) : Bool := c.isAlpha || c == '_' || c == '$'

def isPart (c : Char) : Bool := isStart c || c.isDigit

/-- Letters, digits, `_` and `$`; one line break at the end is let pass. -/
def isSpelled : List Char → Bool
  | [] => false
  | c :: cs => isStart c && (cs.dropWhile isPart).isSuffixOf ['\n']

def isValid (name : String) : Bool := isSpelled name.toList && !reservedWords.contains name

def key (name : String) : String := if isValid name then name else Json.quote name

def member (name : String) : String :=
  if isValid name then "." ++ name else "[" ++ Json.quote name ++ "]"

def controllerClass (feature : String) : String := Text.capitalize feature ++ "Controller"

def useCaseClass (feature : String) : String := "Create" ++ Text.capitalize feature ++ "UseCase"

def controllerVariable (feature : String) : String := feature ++ "Controller"

def controllerModule (feature : String) : String :=
  s!"../Features/{feature}/delivery/controllers/{feature}.controller"

def containerModule (feature : String) : String := s!"../Features/{feature}/container"

end ApiScaffold.Identifier
