import ApiScaffold.Generation
import ApiScaffold.Proofs.Run.Quiet

namespace ApiScaffold

namespace Toolchain

open Run

theorem quiet_fails {α : Type} (message tool : String) : Quiet (fails message tool : Run α) := .throw _

theorem quiet_failsFor {α : Type} (least : Int) (message : String → String) :
    Quiet (failsFor least message : Run α) := .bind (.ofExcept _) fun _ => quiet_fails _ _

theorem quiet_checkNode (least : Int) : Quiet (checkNode least) := by
  refine .bind .get fun w => ?_
  dsimp only
  refine .guarded (quiet_failsFor _ _) fun _ => .bind (.call _) fun o => ?_
  cases o with
  | failed e => exact quiet_fails _ _
  | finished status output errors =>
      refine .bind (.ofExcept _) fun major => ?_
      cases major with
      | none => exact quiet_failsFor _ _
      | some major =>
          dsimp only
          split
          · exact quiet_failsFor _ _
          · exact .bind (.tell _) fun _ => .pure _

theorem quiet_checkNpm : Quiet checkNpm := by
  refine .bind .get fun w => ?_
  split
  · exact quiet_fails _ _
  · exact .pure _

theorem quiet_ensureTypeScript : Quiet ensureTypeScript := by
  refine .bind .get fun w => ?_
  split
  · exact .pure _
  · refine .bind (.tell _) fun _ => .bind (.call _) fun o => ?_
    cases o with
    | failed e => exact .bind (.tell _) fun _ => .pure _
    | finished status output errors =>
        dsimp only
        split
        · exact .bind (.tell _) fun _ => .pure _
        · exact .pure _

theorem quiet_check (least : Int) : Quiet (check least) :=
  (quiet_checkNode least).bind fun _ =>
    quiet_checkNpm.bind fun _ => quiet_ensureTypeScript.bind fun _ => .tell _

theorem quiet_installPackages (folder : String) : Quiet (installPackages folder) := by
  refine .bind (.tell _) fun _ => .bind (.call _) fun o => ?_
  cases o with
  | failed e => exact .bind (.tell _) fun _ => .pure _
  | finished status output errors =>
      dsimp only
      split
      · exact .bind (.tell _) fun _ => .pure _
      · exact .bind (.tell _) fun _ => .bind (.tell _) fun _ => .pure _

theorem makes_installPackages (folder : String) : Makes [] (installPackages folder) fun _ => True := by
  refine .of_quiet (quiet_installPackages folder) fun w => ?_
  obtain ⟨b, hb⟩ := installPackages_ends w.here w.tools folder w.tree
  obtain ⟨rs, cs, hrun⟩ := hb w.complaint w.records w.calls
  exact ⟨b, _, hrun, trivial⟩

end Toolchain

structure Plan where
  root : Path
  drafts : List Draft
  warnings : List String
  project : String

def Plan.generated (k : Plan) : Generated := ⟨k.root, k.drafts.map Draft.shown, k.warnings⟩

namespace Generation

open Run ApiScaffold.Tree

theorem quiet_reviewAll (fs : List Feature) : Quiet (reviewAll fs) := by
  refine .bind (.mapM fun f => ?_) fun _ => .pure _
  exact .bind (.ofExcept _) fun _ => .bind (.ofExcept _) fun _ => .bind (.tell _) fun _ => .pure _

theorem quiet_projectName (root : Path) : Quiet (projectName root) := by
  refine .bind .get fun w => ?_
  dsimp only
  refine .guarded (.throw _) fun _ => .bind (.file? _) fun c => ?_
  rcases c.map Manifest.name with _ | f | name
  · exact .pure _
  · exact .bind (.tell _) fun _ => .pure _
  · exact .pure _

theorem quiet_readFile? (p : Path) : Quiet (readFile? p) := by
  refine .bind (.file? p) fun c => ?_
  cases c with
  | none => exact .pure _
  | some c => exact .bind (.ofExcept _) fun _ => .pure _

theorem quiet_loadRegistry (root : Path) (c : Content) : Quiet (loadRegistry root c) :=
  .bind (quiet_readFile? _) fun _ => .bind (.ofExcept _) fun _ => .bind (quiet_projectName root) fun _ =>
    .bind (.tell _) fun _ => .bind (.tell _) fun _ => .pure _

theorem quiet_registerFeature (r : Registry) (f : Feature) : Quiet (registerFeature r f) := by
  refine .bind (.tell _) fun _ => .bind (.ofExcept _) fun ms => ?_
  dsimp only
  split
  · exact .bind (.tell _) fun _ => .bind (.tell _) fun _ => .pure _
  · exact .pure _

/-- Creating a project up to its first folder. -/
def planCreate (project folder : String) (fs : List Feature) (s : Spelled Settings) : Run Plan := do
  let root := Path.ofText folder / project
  if (← Run.at? root).isSome then throw (.reported (.projectExists root.text))
  if s.shown.checkEnvironment then Toolchain.check s.shown.minNodeVersion
  let warnings ← reviewAll fs
  Run.tell (Record.header ("Setting up project: " ++ project))
  Run.tell (Project.notes fs)
  let drafts ← Run.ofExcept (Draft.render (Project.documents project fs) s)
  return ⟨root, drafts, warnings, project⟩

def buildCreate (fs : List Feature) (s : Settings) (k : Plan) : Run Generated := do
  Run.makeDirectories false k.root
  makeFolders k.root coreFolders
  for f in fs do
    makeFolders k.root (Feature.directories f.name)
    Run.mark .progress ("Created folder structure for feature: " ++ f.name)
  putDown k.root k.drafts
  if s.installDependencies then
    let _ ← Toolchain.installPackages k.root.text
  Run.tell (closing k.root)
  return k.generated

def planAdd (folder name : String) (spec : Option String) (s : Spelled Settings) : Run Plan := do
  let root := Path.ofText folder
  let entryPoint := root / EntryPoint.path
  let some content ← Run.file? entryPoint
    | throw (.reported (.notAProject root.text (some entryPoint.text)))
  if s.shown.checkEnvironment then Toolchain.check s.shown.minNodeVersion
  Run.tell (Field.resolveNotes spec s.shown.defaultFields)
  let f := Feature.build name spec s.shown.defaultFields
  let warnings ← reviewAll [f]
  let loaded ← loadRegistry root content
  Run.tell (Record.header ("Adding feature: " ++ name))
  let r ← registerFeature loaded.shown f
  Run.tell f.documentNotes
  let drafts ← Run.ofExcept (addedDrafts r (loaded.map Registry.project) f s)
  return ⟨root, drafts, warnings, r.project⟩

def buildAdd (name : String) (k : Plan) : Run Generated := do
  makeFolders k.root (Feature.directories name)
  putDown k.root k.drafts
  Run.mark .success s!"Feature '{name}' added to {k.project}"
  return k.generated

theorem create_eq_build (project folder : String) (fs : List Feature) (s : Spelled Settings) :
    create project folder fs s = planCreate project folder fs s >>= buildCreate fs s.shown := by
  unfold create planCreate buildCreate
  simp only [bind_assoc]
  congr 1
  funext n
  split
  · rw [bind_assoc]
    rfl
  · split <;> simp only [bind_assoc, pure_bind, Plan.generated]

theorem add_eq_build (folder name : String) (spec : Option String) (s : Spelled Settings) :
    add folder name spec s = planAdd folder name spec s >>= buildAdd name := by
  unfold add planAdd buildAdd
  simp only [bind_assoc]
  congr 1
  funext c
  cases c with
  | none => rfl
  | some c =>
      dsimp only
      split <;> simp only [bind_assoc, pure_bind, Plan.generated]

theorem quiet_planCreate (project folder : String) (fs : List Feature) (s : Spelled Settings) :
    Quiet (planCreate project folder fs s) := by
  refine .bind (.at? _) fun n => ?_
  dsimp only
  refine .guarded (.throw _) fun _ => .guarded (Toolchain.quiet_check _) fun _ => ?_
  exact .bind (quiet_reviewAll fs) fun _ => .bind (.tell _) fun _ => .bind (.tell _) fun _ =>
    .bind (.ofExcept _) fun _ => .pure _

theorem quiet_planAdd (folder name : String) (spec : Option String) (s : Spelled Settings) :
    Quiet (planAdd folder name spec s) := by
  refine .bind (.file? _) fun c => ?_
  cases c with
  | none => exact .throw _
  | some c =>
      dsimp only
      refine .guarded (Toolchain.quiet_check _) fun _ => .bind (.tell _) fun _ => ?_
      refine .bind (quiet_reviewAll _) fun _ => .bind (quiet_loadRegistry _ c) fun _ => .bind (.tell _) fun _ => ?_
      exact .bind (quiet_registerFeature _ _) fun _ => .bind (.tell _) fun _ =>
        .bind (.ofExcept _) fun _ => .pure _

end Generation

namespace Generation

def folderActions (root : Path) (folders : List String) : List Tree.Action := folders.map fun d => .folder (root / d)

def draftActions (root : Path) (ds : List Draft) : List Tree.Action :=
  ds.flatMap fun d => [.folder (root / d.path).parent, .file (root / d.path) d.content]

/-- What creating a project with the named features does to the tree. -/
def createActions (names : List String) (root : Path) (ds : List Draft) : List Tree.Action :=
  .newFolder root :: (folderActions root coreFolders ++
    (folderActions root (names.flatMap Feature.directories) ++ draftActions root ds))

def addActions (name : String) (root : Path) (ds : List Draft) : List Tree.Action :=
  folderActions root (Feature.directories name) ++ draftActions root ds

end Generation

/-- Each document stands at its place, unless a later one has been written to that place. -/
def Generated.Stands (g : Generated) (here : Location) (t : Tree) : Prop :=
  ∀ before d after, g.documents = before ++ d :: after → ∃ l, t.locate here (g.root / d.path) = .ok l ∧
    ((∀ e ∈ after, t.locate here (g.root / e.path) ≠ .ok l) → t.node? l = some (.file (.text d.content)))

theorem Generated.stands_of_applyAll {g : Generated} {here : Location} {t t' : Tree} {as : List Tree.Action}
    {drafts : List Draft} (hdrafts : g.documents = drafts.map Draft.shown)
    (h : Tree.applyAll here t (as ++ Generation.draftActions g.root drafts) = (.ok (), t')) : g.Stands here t' := by
  intro before d after hdocs
  obtain ⟨first, rest, rfl, rfl, hrest⟩ := List.map_eq_append_iff.1 (hdrafts.symm.trans hdocs)
  obtain ⟨e, last, rfl, rfl, rfl⟩ := List.map_eq_cons_iff.1 hrest
  rw [Generation.draftActions, List.flatMap_append, List.flatMap_cons, List.cons_append, List.singleton_append,
    List.append_cons, ← List.append_assoc, ← List.append_assoc] at h
  obtain ⟨l, hl, hnode⟩ := Tree.applyAll_file h
  refine ⟨l, hl, fun hlater => hnode fun q c hq => ?_⟩
  obtain ⟨later, hmem, hq⟩ := List.mem_flatMap.1 hq
  obtain ⟨rfl, -⟩ : q = g.root / later.path ∧ c = later.content := by simpa using hq
  exact hlater later.shown (List.mem_map_of_mem hmem)

namespace Generation

open Run

theorem makes_makeFolders (root : Path) (ds : List String) :
    Makes (folderActions root ds) (makeFolders root ds) fun _ => True := by
  rw [folderActions, List.map_eq_flatMap]
  exact .forM fun d => .folder _

theorem makes_featureFolders (root : Path) (fs : List Feature) :
    Makes (folderActions root ((fs.map Feature.name).flatMap Feature.directories))
      (forIn fs PUnit.unit fun f _ => do
        makeFolders root (Feature.directories f.name)
        Run.mark .progress ("Created folder structure for feature: " ++ f.name)
        pure (ForInStep.yield PUnit.unit)) fun _ => True := by
  induction fs with
  | nil => exact .pure trivial
  | cons f fs ih =>
      rw [List.forIn_cons, List.map_cons, List.flatMap_cons, folderActions, List.map_append]
      refine Makes.bind (P := (· = ForInStep.yield PUnit.unit)) ?_ ?_
      · exact (makes_makeFolders root _).finish fun _ _ => (Makes.tell _).finish fun _ _ => .pure rfl
      · rintro _ rfl
        exact ih

theorem makes_writeDocument (root : Path) (d : Draft) :
    Makes [.folder (root / d.path).parent, .file (root / d.path) d.content] (writeDocument root d)
      fun _ => True := by
  have hwrite : Makes ([.folder (root / d.path).parent] ++ [.file (root / d.path) d.content]) (do
      Run.makeDirectories true (root / d.path).parent
      Run.write (root / d.path) d.content) fun _ => True := (Makes.folder _).bind fun _ _ => .file _ _
  refine (hwrite.catch_error (fun f => ?_) fun f w => ?_).finish fun _ _ =>
    (Makes.tell _).finish fun _ _ => .pure trivial
  · exact .guarded (.throw _) fun _ => .bind (.tell _) fun _ => .throw _
  · by_cases hf : f.isSystem
    · exact ⟨_, _, by simp [hf]; rfl⟩
    · exact ⟨f, w, by simp [hf]; rfl⟩

theorem makes_putDown (root : Path) (ds : List Draft) : Makes (draftActions root ds) (putDown root ds) fun _ => True :=
  (Makes.mapM (makes_writeDocument root)).finish fun _ _ => .tell _

theorem makes_buildCreate (fs : List Feature) (s : Settings) (k : Plan) :
    Makes (createActions (fs.map Feature.name) k.root k.drafts) (buildCreate fs s k) (· = k.generated) := by
  refine (Makes.newFolder k.root).bind fun _ _ => (makes_makeFolders k.root coreFolders).bind fun _ _ =>
    (makes_featureFolders k.root fs).bind fun _ _ => (makes_putDown k.root k.drafts).finish fun _ _ => ?_
  dsimp only
  split
  · exact (Toolchain.makes_installPackages _).finish fun _ _ => (Makes.tell _).finish fun _ _ => .pure rfl
  · exact (Makes.tell _).finish fun _ _ => .pure rfl

theorem makes_buildAdd (name : String) (k : Plan) :
    Makes (addActions name k.root k.drafts) (buildAdd name k) (· = k.generated) :=
  (makes_makeFolders k.root _).bind fun _ _ => (makes_putDown k.root k.drafts).finish fun _ _ =>
    (Makes.tell _).finish fun _ _ => .pure rfl

end Generation

end ApiScaffold
