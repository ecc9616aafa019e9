namespace ApiScaffold.Text.Base64

def alphabet : List Char := "ABCDEFGHIJKLMNOPQRSTUVWXYZabcdefghijklmnopqrstuvwxyz0123456789+/".toList

def groupBytes (digits : List Nat) : List UInt8 :=
  let bits := digits.reverse.foldl (fun n d => 64 * n + d) 0
  match digits.length with
  | 2 => [(bits / 16).toUInt8]
  | 3 => [(bits / 1024).toUInt8, (bits / 4).toUInt8]
  | 4 => [(bits / 65536).toUInt8, (bits / 256).toUInt8, bits.toUInt8]
  | _ => []

/-- Reads on with the digits of the group that is open, in reverse, and the padding seen in it; nothing
when the text ends within a group. -/
def read (digits : List Nat) (pads : Nat) : List Char → Option (List UInt8)
  | [] => if digits.isEmpty then some [] else none
  | c :: cs =>
    if c == '=' then
      if 2 ≤ digits.length then
        if 4 ≤ digits.length + pads + 1 then some (groupBytes digits)
        else read digits (pads + 1) cs
      else read digits pads cs
    else
      match alphabet.idxOf? c with
      | none => read digits pads cs
      | some d =>
        if digits.length = 3 then (read [] 0 cs).map (groupBytes (d :: digits) ++ ·)
        else read (d :: digits) 0 cs

def decode? (cs : List Char) : Option (List UInt8) := read [] 0 cs

end ApiScaffold.Text.Base64
