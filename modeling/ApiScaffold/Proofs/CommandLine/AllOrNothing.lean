import ApiScaffold.CommandLine.Program
import ApiScaffold.Proofs.Generation.Success

namespace ApiScaffold

namespace Settings

open Run

theorem quiet_fileEntries (path : String) : Quiet (fileEntries path) := by
  refine .bind (.file? _) fun c => ?_
  cases c with
  | none => exact .bind (.tell _) fun _ => .pure _
  | some c =>
      refine .bind (.ofExcept _) fun _ => .bind .get fun _ => .bind (.ofExcept _) fun _ => .bind (.ofExcept _) fun _ => ?_
      dsimp only
      exact .guarded (.tell _) fun _ => .pure _

theorem quiet_loadSpelled (path : Option String) (overrides : List (String × Data)) :
    Quiet (loadSpelled path overrides) := by
  have hrest (given : List (Data × Data)) : Quiet (do
      Run.tell (overrideNotes (effective overrides))
      let d := Data.mapping (given ++ (effective overrides).map fun o => (.str o.1, o.2))
      Run.tell (notes d)
      return spelled d (← Run.ofExcept (ofData d (path.filter (· ≠ ""))))) :=
    .bind (.tell _) fun _ => .bind (.tell _) fun _ => .bind (.ofExcept _) fun _ => .pure _
  rw [loadSpelled]
  dsimp only
  split
  · exact .bind (quiet_fileEntries _) hrest
  · exact .bind (.pure _) hrest

end Settings

namespace CommandLine

open Run

def Command.plan (s : Spelled Settings) : Command → Run Plan
  | .feature name fields => do
    Run.mark .progress ("Adding feature: " ++ name)
    Generation.planAdd "." name fields s
  | .project name path features => do
    Run.tell (features.flatMap fun f => Field.resolveNotes f.2 s.shown.defaultFields)
    Generation.planCreate name path (features.map fun f => Feature.build f.1 f.2 s.shown.defaultFields) s

def Command.build (s : Settings) : Command → Plan → Run Generated
  | .feature name _, k => Generation.buildAdd name k
  | .project _ _ features, k =>
    Generation.buildCreate (features.map fun f => Feature.build f.1 f.2 s.defaultFields) s k

/-- What a command does to the tree, given what it plans. -/
def Command.actions (k : Plan) : Command → List Tree.Action
  | .feature name _ => Generation.addActions name k.root k.drafts
  | .project _ _ features => Generation.createActions (features.map Prod.fst) k.root k.drafts

theorem Command.stands (c : Command) {k : Plan} {here : Location} {t t' : Tree}
    (h : Tree.applyAll here t (c.actions k) = (.ok (), t')) : k.generated.Stands here t' := by
  cases c with
  | feature name fields => exact Generated.stands_of_applyAll rfl h
  | project name path features =>
      rw [actions, Generation.createActions, ← List.append_assoc, ← List.cons_append] at h
      exact Generated.stands_of_applyAll rfl h

theorem Command.quiet_plan (c : Command) (s : Spelled Settings) : Quiet (c.plan s) := by
  cases c with
  | feature name fields => exact .bind (.tell _) fun _ => Generation.quiet_planAdd _ _ _ _
  | project name path features => exact .bind (.tell _) fun _ => Generation.quiet_planCreate _ _ _ _

theorem Command.makes_build (c : Command) (s : Settings) (k : Plan) :
    Makes (c.actions k) (c.build s k) (· = k.generated) := by
  cases c with
  | feature name fields => exact Generation.makes_buildAdd name k
  | project name path features =>
      have hnames : (features.map fun f => Feature.build f.1 f.2 s.defaultFields).map Feature.name =
          features.map Prod.fst := List.map_map
      rw [actions, ← hnames]
      exact Generation.makes_buildCreate _ s k

namespace Program

theorem execute_eq_build (c : Command) (s : Spelled Settings) : execute c s = c.plan s >>= c.build s.shown := by
  cases c with
  | feature name fields => rw [execute, Generation.add_eq_build, Command.plan, bind_assoc]; rfl
  | project name path features => rw [execute, Generation.create_eq_build, Command.plan, bind_assoc]; rfl

def settle (i : Invocation) : Run (Spelled Settings) := do
  if i.verbose then Run.debug "Verbose mode enabled. DEBUG level logging activated."
  Run.mark .progress "Loading configuration..."
  let s ← Settings.loadSpelled (i.config.bind id) (overrides i)
  Run.debug ("Effective configuration: " ++ (← Run.ofExcept (Settings.text s)))
  return s

/-- What an invocation generates, before that is summed up. -/
def generate (i : Invocation) : Run Generated := do execute i.command (← settle i)

def plan (i : Invocation) : Run Plan := do i.command.plan (← settle i)

theorem perform_eq (i : Invocation) : perform i = generate i >>= summary := by
  unfold perform generate settle
  split <;> simp only [bind_assoc, pure_bind]

theorem quiet_settle (i : Invocation) : Quiet (settle i) := by
  rw [settle]
  refine .guarded (.tell _) fun _ => .bind (.tell _) fun _ => .bind (Settings.quiet_loadSpelled _ _) fun s => ?_
  exact .bind (.ofExcept _) fun _ => .bind (.tell _) fun _ => .pure _

theorem makes_summary (g : Generated) : Makes [] (summary g) fun _ => True := by
  rw [summary]
  dsimp only
  split
  · exact (Makes.tell _).finish fun _ _ => .tell _
  · exact .tell _

/-- Once the invocation comes to change the tree, the system refuses none of its folders and files. -/
def Writable (i : Invocation) (w : World) : Prop :=
  ∀ k ∈ ((plan i).run w).run.1.toOption, Tree.isRefused (Tree.applyAll w.here w.tree (i.command.actions k)).1 = false

instance (i : Invocation) (w : World) : Decidable (Writable i w) :=
  inferInstanceAs (Decidable (∀ k ∈ ((plan i).run w).run.1.toOption,
    Tree.isRefused (Tree.applyAll w.here w.tree (i.command.actions k)).1 = false))

variable {i : Invocation} {w w₁ : World} {k : Plan} {e : Failure} {t : Tree}

theorem generate_of_plan_error (h : ((plan i).run w).run = (.error e, w₁)) :
    ((generate i).run w).run = (.error e, w₁) ∧ w.Stays w₁ := by
  have hquiet : Quiet (plan i) := (quiet_settle i).bind fun s => i.command.quiet_plan s
  have hstays := hquiet w
  rw [h] at hstays
  refine ⟨?_, hstays⟩
  have hplan : plan i = settle i >>= fun s => i.command.plan s := rfl
  rw [hplan] at h
  rcases hs : ((settle i).run w).run with ⟨r, w₂⟩
  cases r with
  | error e₂ =>
      rw [run_bind_of_error hs] at h
      cases h
      exact run_bind_of_error hs
  | ok s =>
      rw [run_bind_of_ok hs] at h
      rw [generate, run_bind_of_ok hs, execute_eq_build]
      exact run_bind_of_error h

/-- An invocation that has a plan makes the actions of it, and all else that it does leaves the tree alone. -/
theorem generate_of_plan (h : ((plan i).run w).run = (.ok k, w₁)) :
    (∀ t, Tree.applyAll w.here w.tree (i.command.actions k) = (.ok (), t) →
      ∃ w', ((generate i).run w).run = (.ok k.generated, w') ∧ w'.tree = t) ∧
    ∀ f t, Tree.applyAll w.here w.tree (i.command.actions k) = (.error f, t) →
      ∃ e w', ((generate i).run w).run = (.error e, w') ∧ w'.tree = t := by
  obtain ⟨s, w₂, hsettled, hs, hplan⟩ := (quiet_settle i).bind_eq_ok h
  have hplanned := i.command.quiet_plan s w₂
  rw [hplan] at hplanned
  have hstays := hsettled.trans hplanned
  have hgenerate : ((generate i).run w).run = ((i.command.build s.shown k).run w₁).run := by
    rw [generate, run_bind_of_ok hs, execute_eq_build]
    exact run_bind_of_ok hplan
  rw [← hstays.here, ← hstays.tree, hgenerate]
  constructor
  · intro t happly
    obtain ⟨g, w', hbuild, rfl, hw'⟩ := (i.command.makes_build s.shown k).ok happly
    exact ⟨w', hbuild, hw'.tree⟩
  · intro f t happly
    obtain ⟨e, w', hbuild, hw'⟩ := (i.command.makes_build s.shown k).error happly
    exact ⟨e, w', hbuild, hw'.tree⟩

theorem guarded_of_ok {w' : World} (h : ((perform i).run w).run = (.ok (), w')) :
    ((guarded i).run w).run = (.ok 0, w') := by
  refine (run_bind_of_ok (a := .error 0) ?_).trans rfl
  rw [run_tryCatch, run_bind_of_ok h]
  rfl

theorem guarded_of_error {w' : World} {e : Failure} (h : ((perform i).run w).run = (.error e, w')) :
    ((guarded i).run w).run = (.ok 1, { w' with records := w'.records ++ failureRecords e }) := by
  refine (run_bind_of_ok (a := .error 1) ?_).trans rfl
  rw [run_tryCatch, run_bind_of_error h]
  rfl

theorem invoke_of_generate_ok (terminal : Bool) {g : Generated}
    (h : ((generate i).run { w with records := [] }).run = (.ok g, w₁)) :
    (invoke i terminal w).1.status = 0 ∧ (invoke i terminal w).2.tree = w₁.tree := by
  obtain ⟨u, w', hsummary, -, hw'⟩ := (makes_summary g).ok (w := w₁) rfl
  have hperform : ((perform i).run { w with records := [] }).run = (.ok (), w') := by
    rw [perform_eq, run_bind_of_ok h, hsummary]
  rw [invoke, guarded_of_ok hperform]
  exact ⟨rfl, hw'.tree⟩

theorem invoke_of_generate_error (terminal : Bool)
    (h : ((generate i).run { w with records := [] }).run = (.error e, w₁)) :
    (invoke i terminal w).1.status = 1 ∧ (invoke i terminal w).2.tree = w₁.tree := by
  have hperform : ((perform i).run { w with records := [] }).run = (.error e, w₁) := by
    rw [perform_eq, run_bind_of_error h]
  rw [invoke, guarded_of_error hperform]
  exact ⟨rfl, rfl⟩

/-- The arguments are an invocation that comes to change the tree, and this is its plan. -/
def Plans (argv : List String) (w : World) (i : Invocation) (k : Plan) : Prop :=
  Invocation.parse argv = .ok i ∧ ((plan i).run { w with records := [] }).run.1 = .ok k

theorem Plans.unique {argv : List String} {j : Invocation} {l : Plan} (h : Plans argv w i k) (h' : Plans argv w j l) :
    i = j ∧ k = l := by
  obtain rfl := Except.ok.inj (h.1.symm.trans h'.1)
  exact ⟨rfl, Except.ok.inj (h.2.symm.trans h'.2)⟩

theorem not_plans_of_error {argv : List String} {j : Invocation} (hparse : Invocation.parse argv = .ok i)
    (hplan : ((plan i).run { w with records := [] }).run = (.error e, w₁)) : ¬Plans argv w j k := by
  intro h
  obtain rfl := Except.ok.inj (hparse.symm.trans h.1)
  have hk := h.2
  rw [hplan] at hk
  cases hk

/-- The file system can be told of all that the plan of an invocation does. -/
def IsExpressible (i : Invocation) (k : Plan) : Prop := ∀ a ∈ i.command.actions k, a.IsExpressible

/-- An invocation whose plan can be expressed does all of it and ends well. -/
theorem invoke_of_expressible (terminal : Bool) (hplan : ((plan i).run { w with records := [] }).run = (.ok k, w₁))
    (hwrites : Writable i { w with records := [] }) (hk : IsExpressible i k) :
    (invoke i terminal w).1.status = 0 ∧
      (∃ w', ((generate i).run { w with records := [] }).run = (.ok k.generated, w')) ∧
      Tree.applyAll w.here w.tree (i.command.actions k) = (.ok (), (invoke i terminal w).2.tree) := by
  have hsystem := hwrites k (by rw [hplan]; rfl)
  rcases happly : Tree.applyAll w.here w.tree (i.command.actions k) with ⟨r, t⟩
  cases r with
  | error f =>
      obtain ⟨before, a, rest, t₁, hactions, -, ha⟩ := Tree.applyAll_error happly
      have hmem : a ∈ i.command.actions k := by rw [hactions]; exact List.mem_append_right _ List.mem_cons_self
      have hf := a.isSystem_of_apply (hk a hmem) ha
      rw [happly] at hsystem
      cases hsystem.symm.trans hf
  | ok u =>
      obtain ⟨w', hrun, rfl⟩ := (generate_of_plan hplan).1 t happly
      obtain ⟨hstatus, htree⟩ := invoke_of_generate_ok terminal hrun
      exact ⟨hstatus, ⟨w', hrun⟩, by rw [htree]⟩

/-- One whose plan cannot stops at the first action that cannot, and leaves what has been done by then. -/
theorem invoke_of_not_expressible (terminal : Bool)
    (hplan : ((plan i).run { w with records := [] }).run = (.ok k, w₁))
    (hwrites : Writable i { w with records := [] }) (hk : ¬IsExpressible i k) :
    (invoke i terminal w).1.status = 1 ∧ ∃ before a rest t, i.command.actions k = before ++ a :: rest ∧
      Tree.applyAll w.here w.tree before = (.ok (), t) ∧ ¬a.IsExpressible ∧
      (invoke i terminal w).2.tree = (a.apply w.here t).2 := by
  have hsystem := hwrites k (by rw [hplan]; rfl)
  rcases happly : Tree.applyAll w.here w.tree (i.command.actions k) with ⟨r, t⟩
  cases r with
  | ok u => exact absurd (Tree.isExpressible_of_applyAll happly) hk
  | error f =>
      obtain ⟨e, w', hrun, rfl⟩ := (generate_of_plan hplan).2 f t happly
      obtain ⟨before, a, rest, t₁, hactions, hbefore, ha⟩ := Tree.applyAll_error happly
      obtain ⟨hstatus, htree⟩ := invoke_of_generate_error terminal hrun
      refine ⟨hstatus, before, a, rest, t₁, hactions, hbefore, fun hexpressible => ?_, by rw [htree, ha]⟩
      rw [happly] at hsystem
      cases hsystem.symm.trans (a.isSystem_of_apply hexpressible ha)

theorem run_eq_invoke {argv : List String} (h : Invocation.parse argv = .ok i) (terminal : Bool) (w : World) :
    run argv terminal w = invoke i terminal w := by
  cases argv with
  | nil => cases h
  | cons a argv =>
      unfold run
      rw [h]
      rfl

theorem run_of_halt {argv : List String} {f : Halt} (h : Invocation.parse argv = .error f) (terminal : Bool)
    (w : World) :
    ((run argv terminal w).1.status = 0 → (run argv terminal w).1.help.isSome) ∧
      (run argv terminal w).2.tree = w.tree := by
  simp only [run, h]
  split
  · exact ⟨nofun, rfl⟩
  · cases f with
    | help form => exact ⟨fun _ => rfl, rfl⟩
    | usage message => exact ⟨nofun, rfl⟩

/-- Short of a refusal by the system, a run that fails has no plan and leaves the tree as it was, or it has one that
cannot be expressed whole: then it stops there, and what it has done by then stays. After a run that ends well, all
documents have been written in their order, unless help was asked for, and each stands at its place or has given it to
a later one. So a run with a plan ends well just when all of the plan can be expressed. -/
theorem run_all_or_nothing {argv : List String} (terminal : Bool)
    (hwrites : ∀ i, Invocation.parse argv = .ok i → Writable i { w with records := [] }) :
    let ending := (run argv terminal w).1
    let after := (run argv terminal w).2
    (ending.status ≠ 0 → ((∀ i k, ¬Plans argv w i k) ∧ after.tree = w.tree) ∨
      ∃ i k before a rest t, Plans argv w i k ∧ i.command.actions k = before ++ a :: rest ∧
        Tree.applyAll w.here w.tree before = (.ok (), t) ∧ ¬a.IsExpressible ∧ after.tree = (a.apply w.here t).2) ∧
    (ending.status = 0 → (ending.help.isSome ∧ after.tree = w.tree) ∨
      ∃ i k w₁, Plans argv w i k ∧ ((generate i).run { w with records := [] }).run = (.ok k.generated, w₁) ∧
        Tree.applyAll w.here w.tree (i.command.actions k) = (.ok (), after.tree) ∧
        k.generated.Stands w.here after.tree) ∧
    ∀ i k, Plans argv w i k → (ending.status = 0 ↔ IsExpressible i k) := by
  intro ending after
  cases hparse : Invocation.parse argv with
  | error f =>
      have hnone (i : Invocation) (k : Plan) : ¬Plans argv w i k := fun h => by cases hparse.symm.trans h.1
      obtain ⟨hhelp, htree⟩ := run_of_halt hparse terminal w
      exact ⟨fun _ => .inl ⟨hnone, htree⟩, fun h => .inl ⟨hhelp h, htree⟩, fun i k h => absurd h (hnone i k)⟩
  | ok i =>
      have hinvoke : run argv terminal w = invoke i terminal w := run_eq_invoke hparse terminal w
      rcases hplan : ((plan i).run { w with records := [] }).run with ⟨r, w₁⟩
      cases r with
      | error e =>
          have hnone (j : Invocation) (k : Plan) : ¬Plans argv w j k := not_plans_of_error hparse hplan
          obtain ⟨hrun, hstays⟩ := generate_of_plan_error hplan
          obtain ⟨hstatus, htree⟩ := invoke_of_generate_error terminal hrun
          rw [← hinvoke] at hstatus htree
          have hfailed : ending.status ≠ 0 := fun h => by cases hstatus.symm.trans h
          exact ⟨fun _ => .inl ⟨hnone, htree.trans hstays.tree⟩, fun h => absurd h hfailed,
            fun j k h => absurd h (hnone j k)⟩
      | ok k =>
          have hplans : Plans argv w i k := ⟨hparse, by rw [hplan]⟩
          by_cases hk : IsExpressible i k
          · obtain ⟨hstatus, ⟨w', hrun⟩, happly⟩ := invoke_of_expressible terminal hplan (hwrites i hparse) hk
            rw [← hinvoke] at hstatus happly
            refine ⟨fun h => absurd hstatus h, fun _ => .inr ⟨i, k, w', hplans, hrun, happly,
              i.command.stands happly⟩, fun j l h => ?_⟩
            obtain ⟨rfl, rfl⟩ := h.unique hplans
            exact ⟨fun _ => hk, fun _ => hstatus⟩
          · obtain ⟨hstatus, before, a, rest, t, hactions, hbefore, ha, htree⟩ :=
              invoke_of_not_expressible terminal hplan (hwrites i hparse) hk
            rw [← hinvoke] at hstatus htree
            have hfailed : ending.status ≠ 0 := fun h => by cases hstatus.symm.trans h
            refine ⟨fun _ => .inr ⟨i, k, before, a, rest, t, hplans, hactions, hbefore, ha, htree⟩,
              fun h => absurd h hfailed, fun j l h => ?_⟩
            obtain ⟨rfl, rfl⟩ := h.unique hplans
            exact ⟨fun h => absurd h hfailed, fun h => absurd h hk⟩

theorem run_all_or_nothing_shop :
    let argv := ["shop", "--skip-checks", "--skip-install"]
    let w : World := .fresh [(["home"], .directory)] ["home"] .bare
    let after := (run argv false w).2
    (run argv false w).1.status = 0 ∧ ∃ i k w₁, Plans argv w i k ∧
      ((generate i).run { w with records := [] }).run = (.ok k.generated, w₁) ∧
      Tree.applyAll w.here w.tree (i.command.actions k) = (.ok (), after.tree) ∧
      k.generated.Stands w.here after.tree := by
  intro argv w after
  have hwrites (i : Invocation) (hi : Invocation.parse argv = .ok i) : Writable i { w with records := [] } := by
    have hparse : Invocation.parse argv = .ok ⟨.project "shop" "." [], none, false, false, true, true⟩ := by
      decide +kernel
    obtain rfl := Except.ok.inj (hi.symm.trans hparse)
    decide +kernel
  have hend : ((run argv false w).1.status, (run argv false w).1.help.isSome) = (0, false) := by decide +kernel
  obtain ⟨hstatus, hhelp⟩ := Prod.mk.inj hend
  exact ⟨hstatus, ((run_all_or_nothing false hwrites).2.1 hstatus).resolve_left fun h => by simp [hhelp] at h⟩

/-- No plan for an addition can be expressed whole if the manifest calls the project what no text is and no README calls it
otherwise. -/
theorem not_isExpressible_of_name {name : String} {fields : Option String} {c : Content} {codes : List Nat}
    (hplan : ((plan i).run w).run = (.ok k, w₁)) (hcommand : i.command = .feature name fields)
    (hreadme : w.tree.look w.here (Path.ofText "." / Readme.path) = .ok none)
    (hmanifest : w.tree.look w.here (Path.ofText "." / Manifest.path) = .ok (some (.file c)))
    (hname : Manifest.name c = .ok (some (.ofCodes codes))) (hcodes : ¬(Spelled.ofCodes codes).IsText) :
    ¬IsExpressible i k := by
  obtain ⟨s, w₂, hsettled, -, hrun⟩ := (quiet_settle i).bind_eq_ok hplan
  rw [hcommand, Command.plan] at hrun
  obtain ⟨u, w₃, htold, -, hadd⟩ := (Quiet.tell _).bind_eq_ok hrun
  obtain ⟨-, _, loaded, w₄, _, -, hstays, hload, f, -, -, hdrafts⟩ := Generation.planAdd_eq_ok hadd
  have hsame := (hsettled.trans htold).trans hstays
  rw [← hsame.tree, ← hsame.here] at hreadme hmanifest
  rw [Generation.loadRegistry_untitled hreadme hmanifest hname hload] at hdrafts
  obtain ⟨d, hd, htext⟩ := Generation.addedDrafts_unencodable hcodes hdrafts
  intro hall
  refine htext (hall (.file (k.root / d.path) d.content) ?_).2
  rw [hcommand]
  refine List.mem_append_right _ (List.mem_flatMap_of_mem hd ?_)
  exact List.mem_cons_of_mem _ List.mem_cons_self

/-- It calls the project by half of a surrogate pair. -/
def misnaming : Content := .text "\x7b\"name\": \"\\ud800\"\x7d"

def misnamed : World :=
  .fresh [(["home"], .directory), (["home", "package.json"], .file misnaming),
    (["home", "Server"], .directory), (["home", "Server", "index.ts"], .file (.text ""))] ["home"] .bare

theorem name_misnaming : Manifest.name misnaming = .ok (some (.ofCodes [0xd800])) := by
  have hname : (Manifest.name misnaming).toOption = some (some (.ofCodes [0xd800])) := by decide +kernel
  cases h : Manifest.name misnaming with
  | ok name =>
      rw [h] at hname
      exact congrArg Except.ok (Option.some.inj hname)
  | error f =>
      rw [h] at hname
      cases hname

/-- The system refuses nothing of an addition to it, and yet the addition fails, and a folder of the feature stays. -/
theorem misnamed_left_changed :
    let argv := ["feature", "user", "--skip-checks"]
    (∀ i, Invocation.parse argv = .ok i → Writable i { misnamed with records := [] }) ∧
      (run argv false misnamed).1.status = 1 ∧ (run argv false misnamed).2.tree ≠ misnamed.tree := by
  intro argv
  let i : Invocation := ⟨.feature "user" none, none, false, false, false, true⟩
  let w : World := { misnamed with records := [] }
  have hparse : Invocation.parse argv = .ok i := by decide +kernel
  have haccepted : ∀ k ∈ ((plan i).run w).run.1.toOption, k.root = Path.ofText "." ∧
      (Tree.applyAll w.here w.tree ((i.command.actions k).map Tree.Action.asShown)).1 = .ok () := by decide +kernel
  have hwrites : Writable i w := fun k hk => Tree.isRefused_applyAll (haccepted k hk).2
  have hplanned : ((plan i).run w).run.1.toOption.isSome = true := by decide +kernel
  rcases hplan : ((plan i).run w).run with ⟨_ | k, w₁⟩
  · rw [hplan] at hplanned
    cases hplanned
  obtain ⟨hroot, -⟩ := haccepted k (by rw [hplan]; rfl)
  have hk : ¬IsExpressible i k := not_isExpressible_of_name hplan rfl rfl rfl name_misnaming (by decide)
  obtain ⟨hstatus, before, a, rest, t, hactions, hbefore, ha, htree⟩ := invoke_of_not_expressible false hplan hwrites hk
  rw [run_eq_invoke hparse]
  refine ⟨fun j hj => Except.ok.inj (hparse.symm.trans hj) ▸ hwrites, hstatus, fun hsame => ?_⟩
  rw [hsame] at htree
  let p : Path := Path.ofText "." / "Features/user/domain/entity"
  obtain ⟨as, hfirst⟩ : ∃ as, i.command.actions k = .folder p :: as := ⟨_, by rw [Command.actions, hroot]; rfl⟩
  have hmade : .folder p ∈ before := by
    rw [hfirst] at hactions
    cases before with
    | nil =>
        obtain rfl := (List.cons.inj hactions).1
        exact absurd (by decide +kernel) ha
    | cons b before =>
        obtain rfl := (List.cons.inj hactions).1
        exact List.mem_cons_self
  obtain ⟨l, hl⟩ := Tree.rooted_of_applyAll hbefore hmade
  have hthere := hl.of_keeps (Tree.keeps_apply misnamed.here t a)
  rw [← htree] at hthere
  have hnone : Tree.at? misnamed.tree misnamed.here p = none := by decide +kernel
  rw [Tree.at?, hthere.locate_eq] at hnone
  cases hthere.node?_eq.symm.trans hnone

end Program

end CommandLine

end ApiScaffold
