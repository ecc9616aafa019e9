import ApiScaffold.Keyed
import ApiScaffold.Path
import ApiScaffold.Tree.Content

namespace ApiScaffold

/-- The names on the way from the root. -/
abbrev Location := List String

inductive Node
  | directory
  | file (c : Content)
  deriving DecidableEq, Repr

def Node.content? : Node → Option Content
  | .file c => some c
  | .directory => none

abbrev Tree := List (Location × Node)

namespace Tree

/-- What lies at a location; the root is always there. -/
def node? (t : Tree) : Location → Option Node
  | [] => some .directory
  | l => Keyed.get? l t

inductive Obstacle
  | missing | notADirectory | tooLong
  deriving DecidableEq, Repr

def next (l : Location) (part : String) : Location := if part = ".." then l.dropLast else l ++ [part]

def follow (t : Tree) (l : Location) : List String → Except Obstacle Location
  | [] => .ok l
  | p :: ps =>
    match node? t l with
    | none => .error .missing
    | some (.file _) => .error .notADirectory
    | some .directory => if Path.isLongPart p then .error .tooLong else follow t (next l p) ps

def start (here : Location) (p : Path) : Location := if p.absolute then [] else here

def locate (t : Tree) (here : Location) (p : Path) : Except Obstacle Location :=
  if p.isLong then .error .tooLong else follow t (start here p) p.parts

def at? (t : Tree) (here : Location) (p : Path) : Option Node :=
  match locate t here p with
  | .ok l => node? t l
  | .error _ => none

def Obstacle.failure (o : Obstacle) (p : Path) : Failure :=
  match o with
  | missing => .notFound p.text
  | notADirectory => .notADirectory p.text
  | tooLong => .nameTooLong p.text

/-- What a path leads to, unless it is too long to be followed. -/
def look (t : Tree) (here : Location) (p : Path) : Except Failure (Option Node) :=
  if p.hasNull then .ok none else
  match locate t here p with
  | .ok l => .ok (node? t l)
  | .error .tooLong => .error (.nameTooLong p.text)
  | .error _ => .ok none

def isDirectory (t : Tree) (here : Location) (p : Path) : Bool := at? t here p == some .directory

def makeOne (t : Tree) (here : Location) (p : Path) : Except Failure Tree :=
  if p.hasNull then .error .nullInPath else
  match locate t here p with
  | .error o => .error (o.failure p)
  | .ok l => if (node? t l).isSome then .error (.fileExists p.text) else .ok (Keyed.put l .directory t)

/-- Lets a directory that is there already pass for one just made, if it is the system that has refused. -/
def orThere (t : Tree) (here : Location) (p : Path) (f : Failure) : Except Failure Unit × Tree :=
  (if f.isSystem && isDirectory t here p then .ok () else .error f, t)

/-- Makes a directory, and its parents where they are missing; `parts` are in reverse. What has been made
stays when a later step fails. -/
def makeAll (absolute : Bool) (here : Location) (mayExist : Bool) (parts : List String) (t : Tree) :
    Except Failure Unit × Tree :=
  let p : Path := ⟨absolute, parts.reverse⟩
  let settle := fun (t : Tree) (f : Failure) => if mayExist then orThere t here p f else (.error f, t)
  match makeOne t here p with
  | .ok t => (.ok (), t)
  | .error (.notFound f) =>
    match parts with
    | [] => (.error (.notFound f), t)
    | _ :: above =>
      match makeAll absolute here true above t with
      | (.error f, t) => (.error f, t)
      | (.ok (), t) =>
        match makeOne t here p with
        | .ok t => (.ok (), t)
        | .error (.notFound f) => (.error (.notFound f), t)
        | .error f => settle t f
  | .error f => settle t f

def makeDirectories (mayExist : Bool) (here : Location) (p : Path) (t : Tree) :
    Except Failure Unit × Tree :=
  makeAll p.absolute here mayExist p.parts.reverse t

def write (t : Tree) (here : Location) (p : Path) (c : Content) : Except Failure Tree :=
  if p.hasNull then .error .nullInPath else
  match locate t here p with
  | .error o => .error (o.failure p)
  | .ok l =>
    match node? t l with
    | some .directory => .error (.isADirectory p.text)
    | _ => .ok (Keyed.put l (.file c) t)

/-- Opens a file, which empties it, and writes a text into it that can be encoded. -/
def writeText (t : Tree) (here : Location) (p : Path) (c : Spelled String) : Except Failure Unit × Tree :=
  match t.write here p (.text (c.encoded.toOption.getD "")) with
  | .ok t => (c.encoded.map fun _ => (), t)
  | .error f => (.error f, t)

def remove (t : Tree) (l : Location) : Tree := t.filter fun e => !l.isPrefixOf e.1

end Tree

end ApiScaffold
