import ApiScaffold.Generation
import ApiScaffold.Proofs.Run.Calls

namespace ApiScaffold

namespace Toolchain

open Run

variable {P : Call → Prop}

def checks : List (List String) := [["node", "-v"], ["npm", "install", "-g", "typescript"]]

def installation : List String := ["npm", "install"]

theorem starts_fails {α : Type} (message tool : String) : Starts P (fails message tool : Run α) := .throw _

theorem starts_failsFor {α : Type} (least : Int) (message : String → String) :
    Starts P (failsFor least message : Run α) := .bind (.ofExcept _) fun _ => starts_fails _ _

theorem starts_checkNode (least : Int) : Starts (·.words ∈ checks) (checkNode least) := by
  refine .bind .get fun w => ?_
  dsimp only
  refine .guarded (fun _ => starts_failsFor _ _) fun _ => .bind (.call (List.mem_cons_self ..)) fun o => ?_
  cases o with
  | failed e => exact starts_fails _ _
  | finished status output errors =>
      refine .bind (.ofExcept _) fun major => ?_
      cases major with
      | none => exact starts_failsFor _ _
      | some major =>
          dsimp only
          split
          · exact starts_failsFor _ _
          · exact .bind (.tell _) fun _ => .pure _

theorem starts_checkNpm : Starts P checkNpm := by
  refine .bind .get fun w => ?_
  split
  · exact starts_fails _ _
  · exact .pure _

theorem starts_ensureTypeScript : Starts (·.words ∈ checks) ensureTypeScript := by
  refine .bind .get fun w => ?_
  split
  · exact .pure _
  · refine .bind (.tell _) fun _ => .bind (.call (List.mem_cons_of_mem _ (List.mem_cons_self ..))) fun o => ?_
    cases o with
    | failed e => exact .bind (.tell _) fun _ => .pure _
    | finished status output errors =>
        dsimp only
        exact .guarded (fun _ => .tell _) fun _ => .pure _

theorem starts_check (least : Int) : Starts (·.words ∈ checks) (check least) :=
  (starts_checkNode least).bind fun _ => starts_checkNpm.bind fun _ => starts_ensureTypeScript.bind fun _ => .tell _

theorem starts_installPackages (folder : String) : Starts (·.words = installation) (installPackages folder) := by
  refine .bind (.tell _) fun _ => .bind (.call rfl) fun o => ?_
  cases o with
  | failed e => exact .bind (.tell _) fun _ => .pure _
  | finished status output errors =>
      dsimp only
      split
      · exact .bind (.tell _) fun _ => .pure _
      · exact .bind (.tell _) fun _ => .bind (.tell _) fun _ => .pure _

/-- A command of the check, if there is one, or the installation of packages, if they are installed. -/
def Allows (checked installed : Bool) (c : Call) : Prop :=
  (checked = true ∧ c.words ∈ checks) ∨ (installed = true ∧ c.words = installation)

variable {checked installed : Bool} {c : Call}

theorem starts_checkWhen (h : checked = true) (least : Int) : Starts (Allows checked installed) (check least) :=
  (starts_check least).mono fun _ hc => .inl ⟨h, hc⟩

theorem starts_installWhen (h : installed = true) (folder : String) :
    Starts (Allows checked installed) (installPackages folder) :=
  (starts_installPackages folder).mono fun _ hc => .inr ⟨h, hc⟩

theorem Allows.not_mem_checks (h : Allows checked installed c) (hchecked : checked = false) : c.words ∉ checks := by
  obtain ⟨ht, -⟩ | ⟨-, hc⟩ := h
  · cases hchecked.symm.trans ht
  · rw [hc]
    decide

theorem Allows.ne_installation (h : Allows checked installed c) (hinstalled : installed = false) :
    c.words ≠ installation := by
  obtain ⟨-, hc⟩ | ⟨ht, -⟩ := h
  · rintro heq
    rw [heq] at hc
    exact absurd hc (by decide)
  · cases hinstalled.symm.trans ht

end Toolchain

namespace Generation

open Run

variable {P : Toolchain.Call → Prop}

theorem starts_reviewAll (fs : List Feature) : Starts P (reviewAll fs) := by
  refine .bind (.mapM fun f => ?_) fun _ => .pure _
  exact .bind (.ofExcept _) fun _ => .bind (.ofExcept _) fun _ => .bind (.tell _) fun _ => .pure _

theorem starts_projectName (root : Path) : Starts P (projectName root) := by
  refine .bind .get fun w => ?_
  dsimp only
  refine .guarded (fun _ => .throw _) fun _ => .bind (.file? _) fun c => ?_
  rcases c.map Manifest.name with _ | f | name
  · exact .pure _
  · exact .bind (.tell _) fun _ => .pure _
  · exact .pure _

theorem starts_readFile? (p : Path) : Starts P (readFile? p) := by
  refine .bind (.file? p) fun c => ?_
  cases c with
  | none => exact .pure _
  | some c => exact .bind (.ofExcept _) fun _ => .pure _

theorem starts_loadRegistry (root : Path) (c : Content) : Starts P (loadRegistry root c) :=
  .bind (starts_readFile? _) fun _ => .bind (.ofExcept _) fun _ => .bind (starts_projectName root) fun _ =>
    .bind (.tell _) fun _ => .bind (.tell _) fun _ => .pure _

theorem starts_registerFeature (r : Registry) (f : Feature) : Starts P (registerFeature r f) := by
  refine .bind (.tell _) fun _ => .bind (.ofExcept _) fun ms => ?_
  dsimp only
  split
  · exact .bind (.tell _) fun _ => .bind (.tell _) fun _ => .pure _
  · exact .pure _

theorem starts_makeFolders (root : Path) (folders : List String) : Starts P (makeFolders root folders) :=
  .forM fun _ => .change _

theorem starts_writeDocument (root : Path) (d : Draft) : Starts P (writeDocument root d) := by
  refine .bind (.tryCatch (.bind (.change _) fun _ => .change _) fun f => ?_) fun _ =>
    .bind (.tell _) fun _ => .pure _
  exact .guarded (fun _ => .throw _) fun _ => .bind (.tell _) fun _ => .throw _

theorem starts_putDown (root : Path) (ds : List Draft) : Starts P (putDown root ds) :=
  .bind (.mapM (starts_writeDocument root)) fun _ => .tell _

theorem starts_create (project folder : String) (fs : List Feature) (s : Spelled Settings) :
    Starts (Toolchain.Allows s.shown.checkEnvironment s.shown.installDependencies) (create project folder fs s) := by
  refine .bind (.at? _) fun n => ?_
  dsimp only
  refine .guarded (fun _ => .throw _) fun _ => .guarded (fun h => Toolchain.starts_checkWhen h _) fun _ => ?_
  refine .bind (starts_reviewAll fs) fun _ => .bind (.tell _) fun _ => .bind (.tell _) fun _ =>
    .bind (.ofExcept _) fun docs => .bind (.change _) fun _ => .bind (starts_makeFolders _ _) fun _ => ?_
  refine .bind (.forIn (fun f _ => .bind (starts_makeFolders _ _) fun _ => .bind (.tell _) fun _ => .pure _) _)
    fun _ => .bind (starts_putDown _ _) fun _ => ?_
  split
  next h => exact .bind (Toolchain.starts_installWhen h _) fun _ => .bind (.tell _) fun _ => .pure _
  · exact .bind (.tell _) fun _ => .pure _

theorem starts_add (folder name : String) (spec : Option String) (s : Spelled Settings) :
    Starts (Toolchain.Allows s.shown.checkEnvironment false) (add folder name spec s) := by
  refine .bind (.file? _) fun c => ?_
  cases c with
  | none => exact .throw _
  | some c =>
      dsimp only
      refine .guarded (fun h => Toolchain.starts_checkWhen h _) fun _ => .bind (.tell _) fun _ => ?_
      refine .bind (starts_reviewAll _) fun _ => .bind (starts_loadRegistry _ c) fun _ => .bind (.tell _) fun _ => ?_
      refine .bind (starts_registerFeature _ _) fun _ => .bind (.tell _) fun _ => .bind (.ofExcept _) fun docs => ?_
      exact .bind (starts_makeFolders _ _) fun _ => .bind (starts_putDown _ _) fun _ =>
        .bind (.tell _) fun _ => .pure _

end Generation

end ApiScaffold
