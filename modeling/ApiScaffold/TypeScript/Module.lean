namespace ApiScaffold.TypeScript

def braces (s : String) : String := "\x7b " ++ s ++ " \x7d"

def noBody : String := "\x7b\x7d"

def indent (ls : List String) : List String := ls.map fun l => if l = "" then "" else "  " ++ l

/-- Bodies between braces, each after its head and the last followed by `tail`. -/
def chain (first : String × List String) (others : List (String × List String)) (tail : String) :
    List String :=
  (first.1 ++ " \x7b") :: indent first.2 ++
    others.flatMap (fun b => ("\x7d " ++ b.1 ++ " \x7b") :: indent b.2) ++ ["\x7d" ++ tail]

def block (head : String) (body : List String) (tail : String) : List String := chain (head, body) [] tail

def call (head : String) (body : List String) (tail : String) : List String :=
  (head ++ "(\x7b") :: indent body ++ ["\x7d)" ++ tail]

structure Import where
  whole : Option String
  names : List String
  source : String
  deriving DecidableEq, Repr

namespace Import

def effects (source : String) : Import := ⟨none, [], source⟩

def default (name source : String) : Import := ⟨some name, [], source⟩

def named (names : List String) (source : String) : Import := ⟨none, names, source⟩

def clause (i : Import) : String :=
  match i.whole, i.names with
  | none, [] => ""
  | some w, [] => w ++ " from "
  | none, ns => braces (", ".intercalate ns) ++ " from "
  | some w, ns => w ++ ", " ++ braces (", ".intercalate ns) ++ " from "

def line (i : Import) : String := "import " ++ i.clause ++ "'" ++ i.source ++ "';"

def bound (i : Import) : List String := i.whole.toList ++ i.names

end Import

inductive Keyword
  | classType | interfaceType | constant | function | typeName
  deriving DecidableEq, Repr

def Keyword.text : Keyword → String
  | classType => "class"
  | interfaceType => "interface"
  | constant => "const"
  | function => "function"
  | typeName => "type"

/-- A declaration; `rest` is what follows the name on its line and `body` the lines below. -/
structure Declaration where
  decorators : List String
  exported : Bool
  keyword : Keyword
  name : String
  rest : String
  body : List String
  deriving DecidableEq, Repr

namespace Declaration

/-- A declaration with a body between braces; `head` is what stands before it. -/
def block (exported : Bool) (keyword : Keyword) (name head : String) (body : List String) (tail : String) :
    Declaration :=
  ⟨[], exported, keyword, name, head ++ " \x7b", indent body ++ ["\x7d" ++ tail]⟩

def lines (d : Declaration) : List String :=
  d.decorators ++
    ((if d.exported then "export " else "") ++ d.keyword.text ++ " " ++ d.name ++ d.rest) :: d.body

end Declaration

inductive Statement
  | importing (i : Import)
  | declaring (d : Declaration)
  | exporting (names : List String)
  | running (lines : List String)
  | gap
  deriving DecidableEq, Repr

namespace Statement

def lines : Statement → List String
  | importing i => [i.line]
  | declaring d => d.lines
  | exporting ns => ["export " ++ braces (", ".intercalate ns) ++ ";"]
  | running ls => ls
  | gap => [""]

def bound : Statement → List String
  | importing i => i.bound
  | declaring d => [d.name]
  | _ => []

def exported : Statement → List String
  | declaring d => if d.exported then [d.name] else []
  | exporting ns => ns
  | _ => []

end Statement

end TypeScript

def linesText (ls : List String) : String := String.join (ls.map (· ++ "\n"))

abbrev TypeScript.Module := List TypeScript.Statement

namespace TypeScript.Module

def lines (m : Module) : List String := m.flatMap Statement.lines

def text (m : Module) : String := linesText (lines m)

def bound (m : Module) : List String := m.flatMap Statement.bound

def exported (m : Module) : List String := m.flatMap Statement.exported

def imports (m : Module) : List Import := m.filterMap fun
  | .importing i => some i
  | _ => none

end TypeScript.Module

end ApiScaffold
