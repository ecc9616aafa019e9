import ApiScaffold.Settings
import ApiScaffold.Settings.Numeral
import ApiScaffold.Text.Utf8

namespace ApiScaffold.Settings

def decoded (p : Problem) (bs : List UInt8) : Except Problem String :=
  (Text.Utf8.decode bs).mapError fun _ => p

def fits (n : Int) : Bool := -(Nat.pow 2 63 : Int) ≤ n && n < (Nat.pow 2 63 : Int)

def wholeFloat (x : Number) : Except Problem Int :=
  match x.value with
  | .infinite _ => .error .notFinite
  | .finite r =>
    if r.den ≠ 1 then .error .fractional
    else if r.num.natAbs < Nat.pow 2 63 then .ok r.num
    else .error .tooLarge

def whole : Data → Except Problem Int
  | .bool b => .ok (if b then 1 else 0)
  | .number (.int n) => .ok n
  | .number x => wholeFloat x
  | .nan => .error .notFinite
  | .str s => Numeral.read s
  | .halved _ => .error .undecodable
  | .bytes bs => do Numeral.read (← decoded .unreadable bs)
  | _ => .error .notWhole

def readNodeVersion (d : Data) : Except Problem Int := do
  let n ← whole d
  if n < 1 then throw .belowOne
  .ok n

def portNumeral (s : String) : Except Problem Int :=
  let cs := s.toList
  if cs.isEmpty || !cs.all Text.isDigitLike then .error (.portText s)
  else
    let digits := cs.takeWhile Text.isDigit
    if Failure.digitLimit < digits.length then .error (.portLong digits.length)
    else if digits.length < cs.length then .error (.portDigits s)
    else .ok (Text.digitsValue digits)

/-- A text in which each byte of half of a surrogate pair is replaced. -/
def halvesReplaced (codes : List Nat) : String :=
  .ofList (codes.flatMap fun n => List.replicate (if Text.isHalf n then 3 else 1) (Text.shownCode n))

def readPort (d : Data) : Except Problem Int := do
  let n ← match d with
    | .bool _ => throw .portFlag
    | .str s => portNumeral s
    | .halved codes => throw (.portText (halvesReplaced codes))
    | .number (.int n) => pure n
    | d => throw (.portKind d.kindName)
  if 0 < n && n ≤ 65535 then .ok n else .error (.portRange n)

def readText : Data → Except Problem String
  | .str s => .ok s
  | .halved _ => .error .undecodable
  | .bytes bs => decoded .undecodable bs
  | _ => .error .notText

def readFilled (d : Data) : Except Problem String := do
  let s ← readText d
  if s = "" then throw .emptyText
  .ok s

def readFields (d : Data) : Except Problem String := do
  let s ← readFilled d
  if (Field.readSpec s).isEmpty then throw (.noFields s)
  .ok s

def dropSlashes (cs : List Char) : List Char := (cs.reverse.dropWhile (· == '/')).reverse

def normalPrefix (s : String) : String :=
  match dropSlashes (Text.strip s.toList) with
  | [] => ""
  | c :: cs => .ofList (if c = '/' then c :: cs else '/' :: c :: cs)

/-- Any text is let through as a prefix, halves of surrogate pairs included. -/
def prefixText : Data → Except Problem (Spelled String)
  | .halved codes => .ok (.ofCodes codes)
  | d => (readText d).map .plain

def readPrefix (d : Data) : Except Problem String := (prefixText d).map fun t => normalPrefix t.shown

def falseWords : List String := ["0", "off", "f", "false", "n", "no"]

def trueWords : List String := ["1", "on", "t", "true", "y", "yes"]

def lowerAscii (s : String) : String := .ofList (s.toList.map Char.toLower)

def flagText (s : String) : Except Problem Bool :=
  if falseWords.contains (lowerAscii s) then .ok false
  else if trueWords.contains (lowerAscii s) then .ok true
  else .error .unclearFlag

def flagNumber (n : Int) : Except Problem Bool :=
  if n = 0 then .ok false else if n = 1 then .ok true else .error .unclearFlag

def readFlag : Data → Except Problem Bool
  | .bool b => .ok b
  | .number (.int n) => if fits n then flagNumber n else .error .notFlag
  | .number x =>
    match wholeFloat x with
    | .ok n => flagNumber n
    | .error _ => .error .notFlag
  | .str s => flagText s
  | .halved _ => .error .undecodable
  | .bytes bs => do flagText (← decoded .unclearFlag bs)
  | _ => .error .notFlag

variable {α : Type}

/-- The value of a key, or the standard one when the key is missing. -/
def setting (key : Key) (read : Data → Except Problem α) (standard : α) (d : Data) : Except Fault α :=
  match d.entry? key.text with
  | none => .ok standard
  | some v => (read v).mapError fun p => ⟨some key, p, v⟩

def faultOf (r : Except Fault α) : List Fault :=
  match r with
  | .ok _ => []
  | .error f => [f]

def readMapping (d : Data) : Except (List Fault) Settings :=
  let node := setting .minNodeVersion readNodeVersion standard.minNodeVersion d
  let fields := setting .defaultFields readFields standard.defaultFields d
  let port := setting .port readPort standard.port d
  let host := setting .mongodbHost readFilled standard.mongodbHost d
  let pre := setting .apiPrefix readPrefix standard.apiPrefix d
  let install := setting .installDependencies readFlag standard.installDependencies d
  let check := setting .checkEnvironment readFlag standard.checkEnvironment d
  match node, fields, port, host, pre, install, check with
  | .ok node, .ok fields, .ok port, .ok host, .ok pre, .ok install, .ok check =>
    .ok ⟨node, fields, port, host, pre, install, check⟩
  | _, _, _, _, _, _, _ => .error (faultOf node ++ faultOf fields ++ faultOf port ++ faultOf host ++
      faultOf pre ++ faultOf install ++ faultOf check)

def ofData? (d : Data) : Except (List Fault) Settings :=
  match d with
  | .mapping _ => readMapping d
  | d => .error [⟨none, .notMapping, d⟩]

def Fault.isShowable (f : Fault) : Bool := !f.value.isUnwritable

def report (file : Option String) (fs : List Fault) : Report :=
  .configuration ("Invalid configuration: " ++ "; ".intercalate (fs.map Fault.message)) file

def ofData (d : Data) (file : Option String) : Except Failure Settings :=
  (ofData? d).mapError fun fs =>
    if fs.all Fault.isShowable then .reported (report file fs) else .unwritable

/-- The settings of a document in both spellings, of which the prefix alone may be spelled in two ways. -/
def spelled (d : Data) (s : Settings) : Spelled Settings :=
  match d.entry? Key.apiPrefix.text with
  | some (.halved codes) => .twice s { s with apiPrefix := normalPrefix (Spelled.ofCodes codes).coded }
  | _ => .plain s

def text (s : Spelled Settings) : Except Failure String :=
  let t := s.shown
  let shown : List (Key × Data) := [
    (.minNodeVersion, .number (.int t.minNodeVersion)), (.defaultFields, .str t.defaultFields),
    (.port, .number (.int t.port)), (.mongodbHost, .str t.mongodbHost),
    (.apiPrefix, .ofCodes (s.map apiPrefix).codes),
    (.installDependencies, .bool t.installDependencies), (.checkEnvironment, .bool t.checkEnvironment)]
  if shown.any fun p => p.2.isUnwritable then .error .unwritable
  else .ok (" ".intercalate (shown.map fun p => p.1.text ++ "=" ++ p.2.literal))

end ApiScaffold.Settings
