namespace ApiScaffold

structure Path where
  absolute : Bool
  parts : List String
  deriving DecidableEq, Repr

namespace Path

def isPart (s : String) : Bool := s != "" && s != "."

def ofText (s : String) : Path :=
  ⟨s.toList.head? == some '/', ((s.toList.splitOn '/').map String.ofList).filter isPart⟩

def here : Path := ⟨false, []⟩

def join (p q : Path) : Path := if q.absolute then q else ⟨p.absolute, p.parts ++ q.parts⟩

instance : HDiv Path String Path := ⟨fun p s => p.join (.ofText s)⟩

def parent (p : Path) : Path := ⟨p.absolute, p.parts.dropLast⟩

def text (p : Path) : String :=
  match p.absolute, p.parts with
  | false, [] => "."
  | false, ps => "/".intercalate ps
  | true, ps => "/" ++ "/".intercalate ps

/-- The bytes that one part of a path may have. -/
def partLimit : Nat := 255

/-- The bytes that a whole path may not reach. -/
def limit : Nat := 4096

def isLongPart (s : String) : Bool := partLimit < s.utf8ByteSize

def isLong (p : Path) : Bool := limit ≤ p.text.utf8ByteSize

def hasNull (p : Path) : Bool := p.parts.any fun s => s.toList.contains '\x00'

end Path

end ApiScaffold
