import ApiScaffold.Proofs.CommandLine.AllOrNothing
import ApiScaffold.Proofs.Generation.Calls
import ApiScaffold.Proofs.Settings.Overrides

namespace ApiScaffold

open Run Toolchain

theorem Toolchain.Allows.mono {checked installed checked' installed' : Bool} {c : Call}
    (h : Allows checked installed c) (hchecked : checked = true → checked' = true)
    (hinstalled : installed = true → installed' = true) : Allows checked' installed' c :=
  h.imp (And.imp_left hchecked) (And.imp_left hinstalled)

namespace CommandLine

def Command.isAddition : Command → Bool
  | .feature _ _ => true
  | .project _ _ _ => false

def Invocation.Allows (i : Invocation) : Call → Prop :=
  Toolchain.Allows (!i.skipChecks) (!i.skipInstall && !i.command.isAddition)

namespace Program

/-- An invocation until its configuration file has been loaded. -/
def consult (i : Invocation) : Run (List (Data × Data)) := do
  if i.verbose then Run.debug "Verbose mode enabled. DEBUG level logging activated."
  Run.mark .progress "Loading configuration..."
  Settings.entries (i.config.bind id)

def proceed (i : Invocation) (given : List (Data × Data)) : Run Unit := do
  let s ← Settings.loadOver (i.config.bind id) (overrides i) given
  Run.debug ("Effective configuration: " ++ (← Run.ofExcept (Settings.text s)))
  let g ← execute i.command s
  summary g

theorem perform_eq_proceed (i : Invocation) : perform i = consult i >>= proceed i := by
  unfold perform consult proceed
  rw [Settings.loadSpelled_eq]
  split <;> simp only [bind_assoc]

theorem effective_overrides (i : Invocation) : Settings.effective (overrides i) = overrides i := by
  rw [overrides]
  cases i.skipInstall <;> cases i.skipChecks <;> rfl

theorem proceed_without (i : Invocation) (given : List (Data × Data)) :
    proceed i (Settings.without (overrides i) given) = proceed i given := by
  have h := Settings.loadOver_without (i.config.bind id) (overrides i) given
  rw [effective_overrides] at h
  rw [proceed, h, proceed]

variable {i : Invocation} {s : Spelled Settings} {given : List (Data × Data)} {w : World}

/-- What is skipped is switched off in the settings that an invocation loads. -/
theorem switched_off (h : Yields (Settings.loadOver (i.config.bind id) (overrides i) given) s) :
    (i.skipChecks = true → s.shown.checkEnvironment = false) ∧
      (i.skipInstall = true → s.shown.installDependencies = false) := by
  have hgiven := Settings.isGiven_of_yields_loadOver h
  rw [effective_overrides] at hgiven
  constructor
  · intro hskip
    have hentry : Data.entry? Settings.Key.checkEnvironment.text (Settings.overlaid given (overrides i)) =
        some (.bool false) := by
      rw [Settings.entry?_overlaid, overrides, hskip]
      cases i.skipInstall <;> rfl
    have hcheck := hgiven.check
    rw [Settings.Gives, hentry] at hcheck
    exact (Except.ok.inj hcheck).symm
  · intro hskip
    have hentry : Data.entry? Settings.Key.installDependencies.text (Settings.overlaid given (overrides i)) =
        some (.bool false) := by
      rw [Settings.entry?_overlaid, overrides, hskip]
      cases i.skipChecks <;> rfl
    have hinstall := hgiven.install
    rw [Settings.Gives, hentry] at hinstall
    exact (Except.ok.inj hinstall).symm

theorem starts_execute (c : Command) (s : Spelled Settings) :
    Starts (Allows s.shown.checkEnvironment (s.shown.installDependencies && !c.isAddition)) (execute c s) := by
  cases c with
  | feature name fields =>
      refine .bind (.tell _) fun _ => (Generation.starts_add _ _ _ _).mono fun c hc => hc.mono id nofun
  | project name path features =>
      refine .bind (.tell _) fun _ => (Generation.starts_create _ _ _ _).mono fun c hc => hc.mono id fun h => ?_
      rw [h]
      rfl

theorem starts_summary {P : Call → Prop} (g : Generated) : Starts P (summary g) :=
  .guarded (fun _ => .tell _) fun _ => .tell _

theorem starts_proceed (i : Invocation) (given : List (Data × Data)) : Starts i.Allows (proceed i given) := by
  refine (Settings.starts_loadOver _ _ _).bind_of_yields fun s hs => ?_
  obtain ⟨hcheck, hinstall⟩ := switched_off hs
  refine .bind (.ofExcept _) fun _ => .bind (.tell _) fun _ => .bind ?_ fun g => starts_summary g
  refine (starts_execute i.command s).mono fun c hc => hc.mono (fun h => ?_) fun h => ?_
  · rw [Bool.not_eq_true', Bool.eq_false_iff]
    intro hskip
    cases h.symm.trans (hcheck hskip)
  · rw [Bool.and_eq_true] at h ⊢
    refine ⟨?_, h.2⟩
    rw [Bool.not_eq_true', Bool.eq_false_iff]
    intro hskip
    cases h.1.symm.trans (hinstall hskip)

theorem starts_perform (i : Invocation) : Starts i.Allows (perform i) := by
  rw [perform_eq_proceed]
  refine .bind ?_ (starts_proceed i)
  rw [consult]
  exact .guarded (fun _ => .tell _) fun _ => .bind (.tell _) fun _ => Settings.starts_entries _

theorem starts_guarded (i : Invocation) : Starts i.Allows (guarded i) := by
  refine .bind (.tryCatch (.bind (starts_perform i) fun _ => .pure _) fun e => .bind (.tell _) fun _ => .pure _)
    fun r => ?_
  cases r <;> exact .pure _

theorem starts_invoke (i : Invocation) (terminal : Bool) (w : World) :
    ∃ started, (invoke i terminal w).2.calls = w.calls ++ started ∧ ∀ c ∈ started, i.Allows c := by
  rw [invoke]
  exact starts_guarded i { w with records := [] }

/-- Once the file is loaded, a run ends well just when what the file says for other keys lets it. -/
theorem status_invoke_iff (terminal : Bool) {w₁ : World}
    (h : ((consult i).run { w with records := [] }).run = (.ok given, w₁)) :
    (invoke i terminal w).1.status = 0 ↔
      ∃ w', ((proceed i (Settings.without (overrides i) given)).run w₁).run = (.ok (), w') := by
  have hperform : ((perform i).run { w with records := [] }).run = ((proceed i given).run w₁).run := by
    rw [perform_eq_proceed]
    exact run_bind_of_ok h
  rw [proceed_without, invoke]
  rcases hproceed : ((proceed i given).run w₁).run with ⟨r, w'⟩
  cases r with
  | ok u =>
      rw [guarded_of_ok (hperform.trans hproceed)]
      exact ⟨fun _ => ⟨w', rfl⟩, fun _ => rfl⟩
  | error e =>
      rw [guarded_of_error (hperform.trans hproceed)]
      constructor
      · intro hstatus
        cases hstatus
      · rintro ⟨w'', hok⟩
        cases hok

/-- Without its checks a run starts neither Node.js nor the installation of TypeScript, and without its installation,
or where a feature is added, it installs no packages. An invocation loads its file and proceeds; then it ends as it
would if the file said nothing for the keys that the flags set. -/
theorem run_under_flags {argv : List String} (h : Invocation.parse argv = .ok i) (terminal : Bool) (w : World) :
    (∃ started, (run argv terminal w).2.calls = w.calls ++ started ∧
      (i.skipChecks = true → ∀ c ∈ started,
        c.words ≠ ["node", "-v"] ∧ c.words ≠ ["npm", "install", "-g", "typescript"]) ∧
      (i.skipInstall = true → ∀ c ∈ started, c.words ≠ ["npm", "install"]) ∧
      (i.command.isAddition = true → ∀ c ∈ started, c.words ≠ ["npm", "install"])) ∧
    perform i = consult i >>= proceed i ∧
    ∀ given w₁, ((consult i).run { w with records := [] }).run = (.ok given, w₁) →
      ((run argv terminal w).1.status = 0 ↔
        ∃ w', ((proceed i (Settings.without (overrides i) given)).run w₁).run = (.ok (), w')) := by
  rw [run_eq_invoke h]
  refine ⟨?_, perform_eq_proceed i, fun given w₁ hconsult => status_invoke_iff terminal hconsult⟩
  obtain ⟨started, hcalls, hallows⟩ := starts_invoke i terminal w
  refine ⟨started, hcalls, fun hskip c hc => ?_, fun hskip c hc => ?_, fun haddition c hc => ?_⟩
  · have hnot := (hallows c hc).not_mem_checks (by rw [hskip]; rfl)
    exact ⟨fun heq => hnot (by rw [heq]; decide), fun heq => hnot (by rw [heq]; decide)⟩
  · exact (hallows c hc).ne_installation (by rw [hskip]; rfl)
  · exact (hallows c hc).ne_installation (by rw [haddition, Bool.not_true, Bool.and_false])

def beside (text : String) : World :=
  .fresh [(["home"], .directory), (["home", "c.yaml"], .file (.text text))] ["home"]
    ⟨["node", "npm"], fun _ => .finished 0 "v20.1.0" ""⟩

def flagged : List String := ["shop", "--skip-checks", "--skip-install", "-c", "c.yaml"]

theorem run_under_flags_maybe :
    let w := beside "check_environment: maybe\ninstall_dependencies: true\n"
    (run flagged false w).1.status = 0 ∧ ∃ started, (run flagged false w).2.calls = w.calls ++ started ∧
      ∀ c ∈ started, (c.words ≠ ["node", "-v"] ∧ c.words ≠ ["npm", "install", "-g", "typescript"]) ∧
        c.words ≠ ["npm", "install"] := by
  intro w
  have hparse : Invocation.parse flagged =
      .ok ⟨.project "shop" "." [], some (some "c.yaml"), false, false, true, true⟩ := by decide +kernel
  have hstatus : (run flagged false w).1.status = 0 := by decide +kernel
  obtain ⟨⟨started, hcalls, hchecks, hinstall, -⟩, -, -⟩ := run_under_flags hparse false w
  exact ⟨hstatus, started, hcalls, fun c hc => ⟨hchecks rfl c hc, hinstall rfl c hc⟩⟩

/-- The flag overrides what is loaded, but a numeral without a digit keeps the whole file from being loaded. -/
theorem numeral_not_overridden :
    Invocation.parse flagged = .ok ⟨.project "shop" "." [], some (some "c.yaml"), false, false, true, true⟩ ∧
      (run flagged false (beside "check_environment: 0b_\n")).1.status = 1 ∧
      (run flagged false (beside "")).1.status = 0 := by
  decide +kernel

end Program

end CommandLine

end ApiScaffold
