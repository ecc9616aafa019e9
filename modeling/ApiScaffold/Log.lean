import ApiScaffold.Text.Letter

namespace ApiScaffold

/-- How grave a record is; the named levels are ten apart. -/
abbrev Level := Int

namespace Level

def debug : Level := 10
def info : Level := 20
def warning : Level := 30
def error : Level := 40
def critical : Level := 50

end Level

structure Record where
  level : Level
  message : String
  deriving DecidableEq, Repr

inductive Marker
  | success | progress | highlight
  deriving DecidableEq, Repr

namespace Marker

def all : List Marker := [success, progress, highlight]

def sign : Marker → Char
  | success => '✓'
  | progress => '→'
  | highlight => '•'

def record (m : Marker) (s : String) : Record := ⟨.info, String.singleton m.sign ++ " " ++ s⟩

end Marker

namespace Record

def rule : String := .ofList (List.replicate 60 '=')

def header (title : String) : List Record :=
  [⟨.info, rule⟩, ⟨.info, "  " ++ Text.upperText title⟩, ⟨.info, rule⟩]

end Record

end ApiScaffold
