import ApiScaffold.Proofs.Run.Outcome
import ApiScaffold.Proofs.Text.Trim

namespace ApiScaffold.Toolchain

open Run

variable {path : List String} {answer : Outcome} {least : Int} {output : String} {digits : List Char}
  {r : Except Failure Unit} {started : List Call}

def unmarked : List Char → List Char
  | 'v' :: cs => cs
  | cs => cs

/-- The digits that an answer begins with, after blanks and a `v`, if they are there. -/
structure IsMajor (output : String) (digits : List Char) : Prop where
  ne_nil : digits ≠ []
  isDigit : ∀ c ∈ digits, Text.isDigit c = true
  whole : ∃ mark rest, Text.strip output.toList = mark ++ (digits ++ rest) ∧ (mark = [] ∨ mark = ['v']) ∧
    ∀ c ∈ rest.head?, Text.isDigit c = false

theorem unmarked_of_digit {c : Char} (h : Text.isDigit c = true) (cs : List Char) : unmarked (c :: cs) = c :: cs := by
  unfold unmarked
  split
  next heq =>
    obtain ⟨rfl, -⟩ := List.cons.inj heq
    exact absurd h (by decide)
  next => rfl

theorem mark_cases (cs : List Char) : ∃ mark, cs = mark ++ unmarked cs ∧ (mark = [] ∨ mark = ['v']) := by
  unfold unmarked
  split
  · exact ⟨['v'], rfl, .inr rfl⟩
  · exact ⟨[], rfl, .inl rfl⟩

theorem isMajor_iff : IsMajor output digits ↔
    digits ≠ [] ∧ (unmarked (Text.strip output.toList)).takeWhile Text.isDigit = digits := by
  constructor
  · rintro ⟨hne, hdigits, mark, rest, hwhole, hmark, hrest⟩
    have hstop : rest.takeWhile Text.isDigit = [] := by
      cases rest with
      | nil => rfl
      | cons c rest => rw [List.takeWhile_cons_of_neg (by simp [hrest c rfl])]
    have hunmarked : unmarked (Text.strip output.toList) = digits ++ rest := by
      rw [hwhole]
      obtain rfl | rfl := hmark
      · obtain ⟨c, tail, rfl⟩ := List.exists_cons_of_ne_nil hne
        exact unmarked_of_digit (hdigits c List.mem_cons_self) _
      · rfl
    refine ⟨hne, ?_⟩
    rw [hunmarked, List.takeWhile_append_of_pos hdigits, hstop, List.append_nil]
  · rintro ⟨hne, rfl⟩
    obtain ⟨mark, heq, hmark⟩ := mark_cases (Text.strip output.toList)
    refine ⟨hne, List.all_eq_true.1 List.all_takeWhile, mark,
      (unmarked (Text.strip output.toList)).dropWhile Text.isDigit, ?_, hmark, fun c hc => ?_⟩
    · rwa [List.takeWhile_append_dropWhile]
    · have hhead := List.head?_dropWhile_not Text.isDigit (unmarked (Text.strip output.toList))
      rw [Option.mem_def] at hc
      rwa [hc] at hhead

theorem IsMajor.unique {other : List Char} (h : IsMajor output digits) (h' : IsMajor output other) : digits = other :=
  (isMajor_iff.1 h).2.symm.trans (isMajor_iff.1 h').2

theorem nodeMajor?_trim (output : String) : nodeMajor? (Text.trim output) =
    match (unmarked (Text.strip output.toList)).takeWhile Text.isDigit with
    | [] => .ok none
    | ds => (Number.wholeOf ds).map some := by
  rw [nodeMajor?, Text.trim, String.toList_ofList, (Text.isTrimmed_strip _).strip_eq]
  rfl

theorem nodeMajor?_of_isMajor (h : IsMajor output digits) (hlength : digits.length ≤ 4300) :
    nodeMajor? (Text.trim output) = .ok (some (Text.digitsValue digits)) := by
  obtain ⟨hne, hdigits⟩ := isMajor_iff.1 h
  rw [nodeMajor?_trim, hdigits]
  split
  next => exact absurd rfl hne
  next =>
    have hlimit : ¬Failure.digitLimit < digits.length := Nat.not_lt.2 hlength
    rw [Number.wholeOf, if_neg hlimit]
    rfl

theorem nodeMajor?_of_not_isMajor (h : ∀ digits, ¬IsMajor output digits) :
    nodeMajor? (Text.trim output) = .ok none := by
  rw [nodeMajor?_trim]
  split
  next => rfl
  next hne => exact absurd (isMajor_iff.2 ⟨hne, rfl⟩) (h _)

/-- Node.js has answered with a version that is late enough. -/
def Meets (answer : Outcome) (least : Int) : Prop := ∃ status output errors digits,
  answer = .finished status output errors ∧ IsMajor output digits ∧ least ≤ Text.digitsValue digits

/-- The version in an answer is short enough to be read. -/
def IsReadable (answer : Outcome) : Prop := ∀ status output errors digits,
  answer = .finished status output errors → IsMajor output digits → digits.length ≤ 4300

structure Suits (path : List String) (answer : Outcome) (least : Int) : Prop where
  node : "node" ∈ path
  version : Meets answer least
  npm : "npm" ∈ path

def nodeVersion : Call := ⟨["node", "-v"], none⟩

def typeScriptInstallation : Call := ⟨["npm", "install", "-g", "typescript"], none⟩

/-- The commands that are on the path, and what becomes of the one that asks for the version. -/
def Offers (path : List String) (answer : Outcome) (t : Toolchain) : Prop :=
  t.onPath = path ∧ t.run nodeVersion = answer

theorem Offers.has_iff {t : Toolchain} (h : Offers path answer t) (command : String) :
    t.has command = true ↔ command ∈ path := by
  rw [has, h.1, List.contains_iff_mem]

theorem Offers.has_eq_false {t : Toolchain} {command : String} (h : Offers path answer t) (hpath : command ∉ path) :
    t.has command = false := by
  rw [← Bool.not_eq_true, h.has_iff]
  exact hpath

def IsReported (e : Failure) : Prop := ∃ message tool, e = .reported (.environment message (some tool))

/-- The report that is due shows the version asked for, since Node.js is missing or has given no version that is late
enough; but that version is too long to be written. -/
def Untellable (path : List String) (answer : Outcome) (least : Int) : Prop :=
  Number.isLong least = true ∧
    ("node" ∉ path ∨ (∃ status output errors, answer = .finished status output errors) ∧ ¬Meets answer least)

/-- How a check that is not passed fails: with a report, or because the report cannot be written. -/
def Tells (path : List String) (answer : Outcome) (least : Int) (e : Failure) : Prop :=
  (Untellable path answer least → e = .unwritable) ∧ (¬Untellable path answer least → IsReported e)

theorem fails_does {α : Type} {T : Toolchain → Prop} (message tool : String) :
    Does T (fails message tool : Run α) (.error (.reported (.environment message (some tool)))) [] := .throw _

def refusal (least : Int) (message : String → String) : Failure :=
  if Number.isLong least then .unwritable
  else .reported (.environment (message (Number.intText least)) (some "node"))

theorem failsFor_does {α : Type} {T : Toolchain → Prop} (least : Int) (message : String → String) :
    Does T (failsFor least message : Run α) (.error (refusal least message)) [] := by
  rw [failsFor, Number.written, refusal]
  split
  · exact (Does.throw _).stop _
  · exact .bind_nil (.ofExcept (.ok _)) (fails_does _ _)

theorem refusal_tells {message : String → String}
    (h : "node" ∉ path ∨ (∃ status output errors, answer = .finished status output errors) ∧ ¬Meets answer least) :
    Tells path answer least (refusal least message) := by
  rw [refusal]
  split
  next hlong => exact ⟨fun _ => rfl, fun hnot => absurd ⟨hlong, h⟩ hnot⟩
  next hshort => exact ⟨fun hun => absurd hun.1 hshort, fun _ => ⟨_, _, rfl⟩⟩

theorem checkNode_missing (answer : Outcome) (least : Int) (h : "node" ∉ path) :
    ∃ e, Tells path answer least e ∧ Does (Offers path answer) (checkNode least) (.error e) [] := by
  refine ⟨refusal least missingNode, refusal_tells (.inl h), .read fun w hw => ?_⟩
  simp only [hw.has_eq_false h]
  exact (failsFor_does least missingNode).stop _

theorem checkNode_failed (h : "node" ∈ path) (message : String) : ∃ e, Tells path (.failed message) least e ∧
    Does (Offers path (.failed message)) (checkNode least) (.error e) [nodeVersion] := by
  have hnot : ¬Untellable path (.failed message) least := by
    rintro ⟨-, hpath | ⟨⟨_, _, _, ⟨⟩⟩, -⟩⟩
    exact hpath h
  refine ⟨.reported (.environment ?message (some "node")), ⟨fun hun => absurd hun hnot, fun _ => ⟨_, _, rfl⟩⟩,
    .read ?run⟩
  case run =>
    intro w hw
    simp only [(hw.has_iff "node").2 h]
    refine .call_then (fun t ht => ht.2) ?_
    exact fails_does _ _

theorem checkNode_refused (h : "node" ∈ path) (status : Int64) (errors : String) {found : Option Nat}
    (hfound : nodeMajor? (Text.trim output) = .ok found) (hold : ∀ n ∈ found, (n : Int) < least)
    (hmeets : ¬Meets (.finished status output errors) least) :
    ∃ e, Tells path (.finished status output errors) least e ∧
      Does (Offers path (.finished status output errors)) (checkNode least) (.error e) [nodeVersion] := by
  have hdoes {T : Toolchain → Prop} := failsFor_does (α := Nat) (T := T) least (outdatedNode (Text.trim output))
  refine ⟨refusal least (outdatedNode (Text.trim output)),
    refusal_tells (.inr ⟨⟨status, output, errors, rfl⟩, hmeets⟩), .read fun w hw => ?_⟩
  simp only [(hw.has_iff "node").2 h]
  refine .call_then (fun t ht => ht.2) ?_
  dsimp only
  rw [hfound]
  refine .bind_nil (.ofExcept (.ok found)) ?_
  cases found with
  | none => exact hdoes
  | some n =>
      dsimp only
      rw [if_pos (hold n rfl)]
      exact hdoes

theorem checkNode_passed (h : "node" ∈ path) (status : Int64) (errors : String) {n : Nat}
    (hfound : nodeMajor? (Text.trim output) = .ok (some n)) (hnew : least ≤ n) :
    Does (Offers path (.finished status output errors)) (checkNode least) (.ok n) [nodeVersion] := by
  refine .read fun w hw => ?_
  simp only [(hw.has_iff "node").2 h]
  refine .call_then (fun t ht => ht.2) ?_
  dsimp only
  rw [hfound]
  refine .bind_nil (.ofExcept (.ok (some n))) ?_
  dsimp only
  rw [if_neg (Int.not_lt.2 hnew)]
  exact .bind_nil (.tell _) (.pure n)

/-- Node.js is asked for its version, and passes just when it gives one that is late enough. -/
theorem checkNode_asks (least : Int) (h : "node" ∈ path) (hread : IsReadable answer) :
    (Meets answer least ∧ ∃ n, Does (Offers path answer) (checkNode least) (.ok n) [nodeVersion]) ∨
      ¬Meets answer least ∧
        ∃ e, Tells path answer least e ∧ Does (Offers path answer) (checkNode least) (.error e) [nodeVersion] := by
  cases answer with
  | failed message => exact .inr ⟨nofun, checkNode_failed h message⟩
  | finished status output errors =>
      by_cases hmeets : Meets (.finished status output errors) least
      · obtain ⟨_, _, _, digits, ⟨⟩, hmajor, hnew⟩ := hmeets
        have hfound := nodeMajor?_of_isMajor hmajor (hread status output errors digits rfl hmajor)
        exact .inl ⟨⟨_, _, _, digits, rfl, hmajor, hnew⟩, _, checkNode_passed h status errors hfound hnew⟩
      · refine .inr ⟨hmeets, ?_⟩
        by_cases hmajor : ∃ digits, IsMajor output digits
        · obtain ⟨digits, hmajor⟩ := hmajor
          have hfound := nodeMajor?_of_isMajor hmajor (hread status output errors digits rfl hmajor)
          refine checkNode_refused h status errors hfound ?_ hmeets
          rintro n ⟨⟩
          exact Int.not_le.1 fun hnew => hmeets ⟨_, _, _, digits, rfl, hmajor, hnew⟩
        · have hfound := nodeMajor?_of_not_isMajor fun digits h => hmajor ⟨digits, h⟩
          exact checkNode_refused h status errors hfound nofun hmeets

theorem checkNpm_passed (h : "npm" ∈ path) : Does (Offers path answer) checkNpm (.ok ()) [] := by
  refine .read fun w hw => ?_
  simp only [(hw.has_iff "npm").2 h]
  exact .pure ()

theorem checkNpm_missing (answer : Outcome) (h : "npm" ∉ path) :
    ∃ e, IsReported e ∧ Does (Offers path answer) checkNpm (.error e) [] := by
  refine ⟨.reported (.environment ?message (some "npm")), ⟨_, _, rfl⟩, .read ?run⟩
  case run =>
    intro w hw
    simp only [hw.has_eq_false h]
    exact fails_does _ _

theorem ensureTypeScript_there (h : "tsc" ∈ path) : Does (Offers path answer) ensureTypeScript (.ok false) [] := by
  refine .read fun w hw => ?_
  simp only [(hw.has_iff "tsc").2 h]
  exact .pure false

theorem ensureTypeScript_missing (h : "tsc" ∉ path) :
    Does (Offers path answer) ensureTypeScript (.ok true) [typeScriptInstallation] := by
  refine .read fun w hw => ?_
  simp only [hw.has_eq_false h]
  refine .bind_nil (.tell _) (.call_bind fun o => ?_)
  cases o with
  | failed message => exact .bind_nil (.tell _) (.pure true)
  | finished status output errors =>
      dsimp only
      split
      · exact .bind_nil (.tell _) (.pure true)
      · exact .pure true

/-- How the check can end, and the commands that it has started by then. -/
inductive Verdict (path : List String) (answer : Outcome) (least : Int) : Except Failure Unit → List Call → Prop
  | missing {e : Failure} (h : "node" ∉ path) (he : Tells path answer least e) : Verdict path answer least (.error e) []
  | refused {e : Failure} (h : "node" ∈ path) (hs : ¬Suits path answer least) (he : Tells path answer least e) :
      Verdict path answer least (.error e) [nodeVersion]
  | ready (hs : Suits path answer least) (h : "tsc" ∈ path) : Verdict path answer least (.ok ()) [nodeVersion]
  | installing (hs : Suits path answer least) (h : "tsc" ∉ path) :
      Verdict path answer least (.ok ()) [nodeVersion, typeScriptInstallation]

theorem check_does (path : List String) (least : Int) (hread : IsReadable answer) :
    ∃ r started, Does (Offers path answer) (check least) r started ∧ Verdict path answer least r started := by
  by_cases hnode : "node" ∈ path
  case neg =>
    obtain ⟨e, he, hdoes⟩ := checkNode_missing answer least hnode
    exact ⟨_, _, hdoes.stop _, .missing hnode he⟩
  obtain ⟨hmeets, n, hversion⟩ | ⟨hmeets, e, he, hversion⟩ := checkNode_asks least hnode hread
  case inr => exact ⟨_, _, hversion.stop _, .refused hnode (fun h => hmeets h.version) he⟩
  by_cases hnpm : "npm" ∈ path
  case neg =>
    -- A version that is late enough has passed, so the report about npm is the one that is due.
    have hnot : ¬Untellable path answer least := fun hun => hun.2.elim (absurd hnode) fun h => h.2 hmeets
    obtain ⟨e, he, hdoes⟩ := checkNpm_missing answer hnpm
    exact ⟨_, _, hversion.bind (hdoes.stop _),
      .refused hnode (fun h => hnpm h.npm) ⟨fun hun => absurd hun hnot, fun _ => he⟩⟩
  have hsuits : Suits path answer least := ⟨hnode, hmeets, hnpm⟩
  have hready {b : Bool} {started : List Call} (h : Does (Offers path answer) ensureTypeScript (.ok b) started) :
      Does (Offers path answer) (check least) (.ok ()) ([nodeVersion] ++ ([] ++ (started ++ []))) :=
    hversion.bind ((checkNpm_passed hnpm).bind (h.bind (.tell _)))
  by_cases htsc : "tsc" ∈ path
  · exact ⟨_, _, hready (ensureTypeScript_there htsc), .ready hsuits htsc⟩
  · exact ⟨_, _, hready (ensureTypeScript_missing htsc), .installing hsuits htsc⟩

theorem Verdict.isOk_iff (h : Verdict path answer least r started) : r = .ok () ↔ Suits path answer least := by
  cases h with
  | missing hnode _ => exact ⟨nofun, fun hs => absurd hs.node hnode⟩
  | refused _ hs _ => exact ⟨nofun, fun h => absurd h hs⟩
  | ready hs _ => exact ⟨fun _ => hs, fun _ => rfl⟩
  | installing hs _ => exact ⟨fun _ => hs, fun _ => rfl⟩

theorem Verdict.tells {e : Failure} (h : Verdict path answer least (.error e) started) : Tells path answer least e := by
  cases h with
  | missing _ he => exact he
  | refused _ _ he => exact he

theorem Verdict.started_eq (h : Verdict path answer least r started) :
    ("node" ∉ path → started = []) ∧
      ("node" ∈ path → ¬(Suits path answer least ∧ "tsc" ∉ path) → started = [nodeVersion]) ∧
      (Suits path answer least → "tsc" ∉ path → started = [nodeVersion, typeScriptInstallation]) := by
  cases h with
  | missing hnode _ => exact ⟨fun _ => rfl, fun h => absurd h hnode, fun hs => absurd hs.node hnode⟩
  | refused hnode hs _ => exact ⟨absurd hnode, fun _ _ => rfl, fun h => absurd h hs⟩
  | ready hs htsc => exact ⟨absurd hs.node, fun _ _ => rfl, fun _ h => absurd htsc h⟩
  | installing hs htsc => exact ⟨absurd hs.node, fun _ h => absurd ⟨hs, htsc⟩ h, fun _ _ => rfl⟩

/-- The check succeeds just when Node.js is there and answers with a version that is late enough, and npm is there.
Otherwise it fails with a report, except where the report has to show the version asked for and that has more digits
than may be written. Without Node.js nothing is started. With it, its version is asked for first and once, and
TypeScript is installed after that if it is missing and all else is well. What becomes of the installation is of no
account, for the result hangs on the path and the answer of Node.js alone. -/
theorem check_decides (w : World) (least : Int) (hread : IsReadable (w.tools.run nodeVersion)) :
    (((check least).run w).run.1 = .ok () ↔ Suits w.tools.onPath (w.tools.run nodeVersion) least) ∧
    (∀ e, ((check least).run w).run.1 = .error e →
      (Untellable w.tools.onPath (w.tools.run nodeVersion) least → e = .unwritable) ∧
      (¬Untellable w.tools.onPath (w.tools.run nodeVersion) least → IsReported e)) ∧
    (∃ started, ((check least).run w).run.2.calls = w.calls ++ started ∧
      ("node" ∉ w.tools.onPath → started = []) ∧
      ("node" ∈ w.tools.onPath →
        ¬(Suits w.tools.onPath (w.tools.run nodeVersion) least ∧ "tsc" ∉ w.tools.onPath) → started = [nodeVersion]) ∧
      (Suits w.tools.onPath (w.tools.run nodeVersion) least → "tsc" ∉ w.tools.onPath →
        started = [nodeVersion, typeScriptInstallation])) ∧
    ∀ w' : World, w'.tools.onPath = w.tools.onPath → w'.tools.run nodeVersion = w.tools.run nodeVersion →
      ((check least).run w').run.1 = ((check least).run w).run.1 := by
  obtain ⟨r, started, hdoes, hverdict⟩ := check_does w.tools.onPath least hread
  obtain ⟨w₁, hrun, -, hcalls⟩ := hdoes w ⟨rfl, rfl⟩
  refine ⟨?_, fun e he => ?_, ⟨started, ?_, hverdict.started_eq⟩, fun w' hpath hanswer => ?_⟩
  · rw [hrun]
    exact hverdict.isOk_iff
  · rw [hrun] at he
    obtain rfl : r = .error e := he
    exact hverdict.tells
  · rw [hrun]
    exact hcalls
  · obtain ⟨w₂, hrun', -, -⟩ := hdoes w' ⟨hpath, hanswer⟩
    rw [hrun, hrun']

def offline : World :=
  .fresh [] []
    ⟨["node", "npm"], fun c => if c = nodeVersion then .finished 1 " v18.2.0\n" "" else .failed "no network"⟩

theorem check_decides_offline : ((check 18).run offline).run.1 = .ok () ∧
    ((check 18).run offline).run.2.calls = [nodeVersion, typeScriptInstallation] := by
  have hmajor : IsMajor " v18.2.0\n" ['1', '8'] := isMajor_iff.2 (by decide +kernel)
  have hread : IsReadable (offline.tools.run nodeVersion) := by
    rintro _ _ _ digits ⟨⟩ h
    rw [h.unique hmajor]
    decide
  have hsuits : Suits offline.tools.onPath (offline.tools.run nodeVersion) 18 :=
    ⟨by decide, ⟨1, _, "", _, rfl, hmajor, by decide⟩, by decide⟩
  obtain ⟨hok, -, ⟨started, hcalls, -, -, hinstalling⟩, -⟩ := check_decides offline 18 hread
  refine ⟨hok.2 hsuits, ?_⟩
  rw [hcalls, hinstalling hsuits (by decide)]
  rfl

/-- Without Node.js, a version of 4301 digits keeps the report from being made. -/
theorem long_version_unreported : ∃ e,
    ((check (Nat.pow 10 4300)).run (.fresh [] [] .bare)).run.1 = .error e ∧ ¬IsReported e := by
  refine ⟨.unwritable, by decide +kernel, ?_⟩
  rintro ⟨message, tool, ⟨⟩⟩

end ApiScaffold.Toolchain
