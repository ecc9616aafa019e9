import ApiScaffold.Text.Literal

namespace ApiScaffold.Text.Utf8

inductive Fault
  | start | continuation | ended
  deriving DecidableEq, Repr

def Fault.reason : Fault → String
  | start => "invalid start byte"
  | continuation => "invalid continuation byte"
  | ended => "unexpected end of data"

inductive Step
  | char (c : Char) (rest : List UInt8)
  | wrong (f : Fault) (bytes : List UInt8) (rest : List UInt8)

def isTail (b : UInt8) : Bool := 0x80 ≤ b && b ≤ 0xbf

/-- The bytes that may follow a leading byte; overlong forms, surrogates and numbers too large are out. -/
def mayFollow (lead b : UInt8) : Bool :=
  if lead = 0xe0 then 0xa0 ≤ b && b ≤ 0xbf
  else if lead = 0xed then 0x80 ≤ b && b ≤ 0x9f
  else if lead = 0xf0 then 0x90 ≤ b && b ≤ 0xbf
  else if lead = 0xf4 then 0x80 ≤ b && b ≤ 0x8f
  else isTail b

def join (n : Nat) (b : UInt8) : Nat := n * 64 + (b.toNat - 0x80)

/-- The last `owed` bytes of a character whose bytes `seen` are in reverse. -/
def tail (n : Nat) (seen : List UInt8) : Nat → List UInt8 → Step
  | 0, r => .char (Char.ofNat n) r
  | _ + 1, [] => .wrong .ended seen.reverse []
  | owed + 1, b :: r =>
    if isTail b then tail (join n b) (b :: seen) owed r else .wrong .continuation seen.reverse (b :: r)

def many (lead : UInt8) (n owed : Nat) : List UInt8 → Step
  | [] => .wrong .ended [lead] []
  | b :: r =>
    if mayFollow lead b then tail (join n b) [b, lead] (owed - 1) r
    else .wrong .continuation [lead] (b :: r)

def step (b : UInt8) (r : List UInt8) : Step :=
  let n := b.toNat
  if b < 0x80 then .char (Char.ofNat n) r
  else if b < 0xc2 then .wrong .start [b] r
  else if b < 0xe0 then many b (n - 0xc0) 1 r
  else if b < 0xf0 then many b (n - 0xe0) 2 r
  else if b < 0xf5 then many b (n - 0xf0) 3 r
  else .wrong .start [b] r

def steps : Nat → List UInt8 → List (Char ⊕ Fault × List UInt8)
  | 0, _ => []
  | _, [] => []
  | fuel + 1, b :: r =>
    match step b r with
    | .char c r => .inl c :: steps fuel r
    | .wrong f bs r => .inr (f, bs) :: steps fuel r

def pieces (bs : List UInt8) : List (Char ⊕ Fault × List UInt8) := steps bs.length bs

def width (c : Char) : Nat := c.utf8Size

structure Wrong where
  place : Nat
  bytes : List UInt8
  fault : Fault
  deriving DecidableEq, Repr

def upToWrong (place : Nat) : List (Char ⊕ Fault × List UInt8) → List Char × Option Wrong
  | [] => ([], none)
  | .inl c :: ps =>
    let r := upToWrong (place + width c) ps
    (c :: r.1, r.2)
  | .inr (f, bs) :: _ => ([], some ⟨place, bs, f⟩)

def decode (bs : List UInt8) : Except Wrong String :=
  match upToWrong 0 (pieces bs) with
  | (cs, none) => .ok (.ofList cs)
  | (_, some w) => .error w

/-- Reads pieces of a text one after another. The bytes of a character that is cut off wait for the next
piece, and the places of wrong bytes count from the first byte that waits. -/
def decodeParts (waiting : List UInt8) : List (List UInt8) → Except Wrong (List Char)
  | [] => if waiting.isEmpty then .ok [] else .error ⟨0, waiting, .ended⟩
  | bs :: parts =>
    match upToWrong 0 (pieces (waiting ++ bs)) with
    | (cs, none) => (decodeParts [] parts).map (cs ++ ·)
    | (cs, some w) =>
      if w.fault = .ended then (decodeParts w.bytes parts).map (cs ++ ·) else .error w

def parts (size : Nat) : Nat → List UInt8 → List (List UInt8)
  | 0, _ => []
  | _, [] => []
  | fuel + 1, bs => bs.take size :: parts size fuel (bs.drop size)

def partSize : Nat := 8192

def decodeInParts (bs : List UInt8) : Except Wrong String :=
  (decodeParts [] (parts partSize bs.length bs)).map String.ofList

def shown (bs : List UInt8) : String :=
  .ofList ((pieces bs).flatMap fun
    | .inl c => [c]
    | .inr (_, bs) => bs.flatMap fun b => '\\' :: 'x' :: hex 2 b.toNat)

end ApiScaffold.Text.Utf8
