import ApiScaffold.Decimal.Number
import ApiScaffold.Text.Character

namespace ApiScaffold

/-- What becomes of a command: it ends with a status and leaves texts, or it cannot be started. -/
inductive Toolchain.Outcome
  | finished (status : Int64) (output errors : String)
  | failed (message : String)
  deriving DecidableEq, Repr

structure Toolchain.Call where
  words : List String
  folder : Option String
  deriving DecidableEq, Repr

structure Toolchain where
  onPath : List String
  run : Toolchain.Call → Toolchain.Outcome

namespace Toolchain

def has (t : Toolchain) (command : String) : Bool := t.onPath.contains command

/-- Nothing on the search path; whatever is started ends well and says nothing. -/
def bare : Toolchain := ⟨[], fun _ => .finished 0 "" ""⟩

def Call.text (c : Call) : String := " ".intercalate c.words

def nodeMajor? (answer : String) : Except Failure (Option Nat) :=
  let cs := match Text.strip answer.toList with
    | 'v' :: cs => cs
    | cs => cs
  match cs.takeWhile Text.isDigit with
  | [] => .ok none
  | ds => (Number.wholeOf ds).map some

end Toolchain

end ApiScaffold
