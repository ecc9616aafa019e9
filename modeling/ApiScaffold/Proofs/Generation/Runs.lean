import ApiScaffold.Proofs.Feature.Places
import ApiScaffold.Proofs.Generation.Steps
import ApiScaffold.Proofs.Project.Emission

namespace ApiScaffold

/-- What is asked of a feature for its files to stay in the project and to be found again. -/
structure Feature.Sound (f : Feature) : Prop where
  isName : IsName f.name
  ne_dot : f.name ≠ "."
  ne_up : f.name ≠ ".."
  maps : f.Maps

theorem Feature.Sound.isEntry {f : Feature} (h : f.Sound) : Path.IsEntry f.name :=
  ⟨⟨h.isName.ne_empty, h.ne_dot, h.isName.noSlash⟩, h.ne_up⟩

structure Path.Inside (p : String) : Prop where
  relative : (ofText p).absolute = false
  ne_nil : (ofText p).parts ≠ []
  dots : ".." ∉ (ofText p).parts

instance (p : String) : Decidable (Path.Inside p) :=
  decidable_of_iff
    ((Path.ofText p).absolute = false ∧ (Path.ofText p).parts ≠ [] ∧ ".." ∉ (Path.ofText p).parts)
    ⟨fun h => ⟨h.1, h.2.1, h.2.2⟩, fun h => ⟨h.relative, h.ne_nil, h.dots⟩⟩

theorem Path.Inside.folder {p : String} (h : Inside p) : (Step.ofFolder p).Proper :=
  ⟨h.dots, fun q c e => by cases e⟩

theorem Path.Inside.document {d : Document} (h : Inside d.path) : (Step.ofDocument d).Proper :=
  ⟨h.dots, fun q c e => by cases e; exact h.ne_nil⟩

theorem Path.inside_of_ofText {p : String} {ps : List String} (h : ofText p = ⟨false, ps⟩) (hne : ps ≠ [])
    (hps : ∀ x ∈ ps, IsEntry x) : Inside p := by
  refine ⟨by rw [h], by rw [h]; exact hne, fun hm => ?_⟩
  rw [h] at hm
  exact (hps _ hm).ne_up rfl

namespace Generation

open Run ApiScaffold.Tree

variable {here : Location} {tools : Toolchain} {t : Tree} {root : Path} {project folder : String} {s : Settings}
  {f : Feature} {fs : List Feature}

theorem inside_core : ∀ p ∈ coreFolders, Path.Inside p := by decide +kernel

theorem inside_directories (h : Path.IsEntry f.name) : ∀ p ∈ Feature.directories f.name, Path.Inside p := by
  intro p hp
  rw [Feature.directories_eq] at hp
  obtain ⟨q, hq, rfl⟩ := List.mem_map.1 hp
  have hentry : ∀ x ∈ q, Path.IsEntry x := fun x hx => (Feature.places_around f.name q hq x hx).isEntry h
  have hne : q ≠ [] := by
    rcases List.mem_append.1 hq with hq | hq
    · obtain ⟨r, -, rfl⟩ := List.mem_map.1 hq
      exact List.cons_ne_nil _ _
    · rw [List.mem_singleton.1 hq]
      exact List.cons_ne_nil _ _
  exact Path.inside_of_ofText (Path.ofText_intercalate fun x hx => (hentry x hx).toIsPart) hne hentry

theorem inside_own (h : Path.IsEntry f.name) : ∀ d ∈ f.own s, Path.Inside d.path := by
  intro d hd
  obtain ⟨k, -, rfl⟩ := List.mem_map.1 hd
  exact Path.inside_of_ofText (k.ofText_path h) (by cases k <;> exact List.cons_ne_nil _ _)
    fun x hx => (k.place_around f.name x hx).isEntry h

theorem own_place (h : Path.IsEntry f.name) {d : Document} (hd : d ∈ f.own s) :
    ∃ k : FeatureDocument, (Path.ofText d.path).parts = k.place f.name := by
  obtain ⟨k, -, rfl⟩ := List.mem_map.1 hd
  exact ⟨k, congrArg Path.parts (k.ofText_path h)⟩

theorem inside_common (project : String) (r : Registry) (s : Settings) :
    ∀ d ∈ Project.common project r s, Path.Inside d.path := by
  have hshared : ∀ k ∈ SharedDocument.all, Path.Inside k.path := by decide +kernel
  intro d hd
  rcases List.mem_append.1 hd with hd | hd
  · obtain ⟨k, hk, rfl⟩ := List.mem_map.1 hd
    exact hshared k hk
  · rcases List.mem_pair.1 hd with rfl | rfl
    · exact show Path.Inside EntryPoint.path by decide +kernel
    · exact show Path.Inside Readme.path by decide +kernel

def folderSteps (f : Feature) : List Step := (Feature.directories f.name).map Step.ofFolder

def createSteps (project : String) (fs : List Feature) (s : Settings) : List Step :=
  coreFolders.map Step.ofFolder ++ fs.flatMap folderSteps ++
    (Project.common project (.ofFeatures project fs) s ++ fs.flatMap fun f => f.own s).map Step.ofDocument

/-- The steps of adding a feature to a project, which then has the registry `r`. -/
def addSteps (r : Registry) (f : Feature) (s : Settings) : List Step :=
  folderSteps f ++ (f.own s ++ [EntryPoint.render r s, Readme.document r s]).map Step.ofDocument

/-- The toolchain is in order, or it is not asked for. -/
def Passes (here : Location) (tools : Toolchain) (s : Settings) : Prop :=
  s.checkEnvironment = true → ∀ t, Ends here tools (Toolchain.check s.minNodeVersion) t (some ((), t))

theorem checked_ends {α : Type} {x : Run α} {o : Option (α × Tree)} (hpasses : Passes here tools s)
    (hx : Ends here tools x t o) :
    Ends here tools (do
      if s.checkEnvironment then Toolchain.check s.minNodeVersion
      x) t o := by
  dsimp only
  split
  next h => exact (hpasses h t).bind hx
  next => exact hx

theorem checked_fails {α : Type} {x : Run α} (hpasses : ¬Passes here tools s) :
    Ends here tools (do
      if s.checkEnvironment then Toolchain.check s.minNodeVersion
      x) t none := by
  obtain ⟨o, ho⟩ := Toolchain.check_blind here tools s.minNodeVersion
  cases o with
  | some u => exact absurd (fun _ t => ho t) hpasses
  | none =>
      dsimp only
      split
      · exact (ho t).stop _
      next h => exact absurd (fun h' => absurd h' h) hpasses

theorem reviewAll_ends (here : Location) (tools : Toolchain) (t : Tree) (hfs : ∀ f ∈ fs, f.Sound) :
    ∃ ws, Ends here tools (reviewAll fs) t (some (ws, t)) := by
  have hall : ∃ all, Ends here tools (fs.mapM fun f => do
      let r ← Run.ofExcept f.review
      Run.ofExcept r.require
      Run.tell (r.warnings.map fun w => ⟨.warning, w⟩)
      return r.warnings) t (some (all, t)) := by
    induction fs with
    | nil => exact ⟨[], .pure _⟩
    | cons f fs ih =>
        obtain ⟨all, hall⟩ := ih fun g hg => hfs g (by simp [hg])
        have hf := hfs f (by simp)
        obtain ⟨r, hr, hrequire⟩ := Feature.review_ok hf.maps hf.isName.ne_empty
        refine ⟨r.warnings :: all, ?_⟩
        rw [List.mapM_cons, hr]
        refine .bind (.bind (.ofExcept r) ?_) (.bind hall (.pure _))
        rw [hrequire]
        exact .bind (.ofExcept ()) (.bind (.tell _) (.pure _))
  obtain ⟨all, hall⟩ := hall
  exact ⟨all.flatten, hall.bind (.pure _)⟩

theorem drafts_ok (hp : Registry.IsTitle project) (hfs : ∀ f ∈ fs, f.Sound) :
    ∃ drafts, Draft.render (Project.documents project fs) s = .ok drafts ∧
      drafts.map Draft.shown = Project.common project (.ofFeatures project fs) s ++ fs.flatMap (fun f => f.own s) ∧
      ∀ d ∈ drafts, d.content.IsText :=
  Draft.render_agreed rfl (Project.documents_eq hp (fun f hf => (hfs f hf).maps) fun f hf => (hfs f hf).isName)

/-- What is left of creating a project when nothing stands in its place and the toolchain is in order. -/
def construct (project : String) (root : Path) (fs : List Feature) (s : Spelled Settings) : Run Generated := do
  let warnings ← reviewAll fs
  Run.tell (Record.header ("Setting up project: " ++ project))
  Run.tell (Project.notes fs)
  let drafts ← Run.ofExcept (Draft.render (Project.documents project fs) s)
  Run.makeDirectories false root
  makeFolders root coreFolders
  for f in fs do
    makeFolders root (Feature.directories f.name)
    Run.mark .progress ("Created folder structure for feature: " ++ f.name)
  putDown root drafts
  if s.shown.installDependencies then
    let _ ← Toolchain.installPackages root.text
  Run.tell (closing root)
  return ⟨root, drafts.map Draft.shown, warnings⟩

theorem create_eq : create project folder fs s = (do
    if (← Run.at? (Path.ofText folder / project)).isSome then
      throw (.reported (.projectExists (Path.ofText folder / project).text))
    if s.checkEnvironment then Toolchain.check s.minNodeVersion
    construct project (Path.ofText folder / project) fs s) := rfl

theorem featureFolders_ends (hfs : ∀ f ∈ fs, f.Sound) :
    Ends here tools (forIn fs PUnit.unit fun f _ => do
        makeFolders root (Feature.directories f.name)
        Run.mark .progress ("Created folder structure for feature: " ++ f.name)
        pure (ForInStep.yield PUnit.unit)) t
      ((lay here root t (fs.flatMap folderSteps)).map ((), ·)) := by
  induction fs generalizing t with
  | nil => exact .pure ()
  | cons f fs ih =>
      have hf := inside_directories (hfs f (by simp)).isEntry
      rw [List.forIn_cons, List.flatMap_cons, lay_append, Option.map_bind]
      refine Ends.andThen (a := ForInStep.yield PUnit.unit) ?_ fun t' _ => ih fun g hg => hfs g (by simp [hg])
      exact (makeFolders_ends fun d hd => (hf d hd).relative).finish fun _ => .bind (.tell _) (.pure _)

theorem construct_ends (tools : Toolchain) {t₁ : Tree}
    (hroot : Tree.makeDirectories false here root t = (.ok (), t₁))
    (hp : Registry.IsTitle project) (hfs : ∀ f ∈ fs, f.Sound) :
    ∃ g : Generated, g.root = root ∧ Ends here tools (construct project root fs s) t
      ((lay here root t₁ (createSteps project fs s)).map (g, ·)) := by
  obtain ⟨ws, hws⟩ := reviewAll_ends here tools t hfs
  obtain ⟨drafts, hdrafts, hshown, htext⟩ := drafts_ok (s := s) hp hfs
  have hinside : ∀ d ∈ drafts, Path.Inside d.path := by
    intro d hd
    have hmem : d.shown ∈ drafts.map Draft.shown := List.mem_map_of_mem hd
    rw [hshown] at hmem
    rcases List.mem_append.1 hmem with hd | hd
    · exact inside_common project _ s d.shown hd
    · obtain ⟨f, hf, hd⟩ := List.mem_flatMap.1 hd
      exact inside_own (hfs f hf).isEntry d.shown hd
  have hclosing (t : Tree) : Ends here tools (do
      if s.installDependencies then
        let _ ← Toolchain.installPackages root.text
      Run.tell (closing root)
      return (⟨root, drafts.map Draft.shown, ws⟩ : Generated)) t (some (⟨root, drafts.map Draft.shown, ws⟩, t)) := by
    dsimp only
    split
    · obtain ⟨b, hb⟩ := Toolchain.installPackages_ends here tools root.text t
      exact hb.bind (.bind (.tell _) (.pure _))
    · exact .bind (.tell _) (.pure _)
  refine ⟨⟨root, drafts.map Draft.shown, ws⟩, rfl, hws.bind (.bind (.tell _) (.bind (.tell _) ?_))⟩
  rw [hdrafts]
  refine .bind (.ofExcept _) (.bind (.change_ok hroot) ?_)
  rw [createSteps, ← hshown, lay_append, lay_append, Option.bind_assoc, Option.map_bind]
  refine (makeFolders_ends fun d hd => (inside_core d hd).relative).andThen fun t₂ _ => ?_
  dsimp only [Function.comp_apply]
  rw [Option.map_bind]
  refine (featureFolders_ends hfs).andThen fun t₃ _ => ?_
  exact (putDown_ends (fun d hd => (hinside d hd).relative) (fun d hd => (hinside d hd).ne_nil) htext).finish hclosing

theorem create_ends {t₁ : Tree} (hfree : t.look here (Path.ofText folder / project) = .ok none)
    (hpasses : Passes here tools s)
    (hroot : Tree.makeDirectories false here (Path.ofText folder / project) t = (.ok (), t₁))
    (hp : Registry.IsTitle project) (hfs : ∀ f ∈ fs, f.Sound) :
    ∃ g : Generated, g.root = Path.ofText folder / project ∧ Ends here tools (create project folder fs s) t
      ((lay here (Path.ofText folder / project) t₁ (createSteps project fs s)).map (g, ·)) := by
  obtain ⟨g, hg, hends⟩ := construct_ends tools hroot hp hfs
  refine ⟨g, hg, ?_⟩
  rw [create_eq]
  exact (Ends.at?_ok hfree).bind (checked_ends hpasses hends)

/-- Creating a project fails, whatever its features, where something is in its place, the toolchain is not in
order, or its folder cannot be made. -/
theorem create_fails (hfs : ∀ f ∈ fs, f.Sound) (hp : Registry.IsTitle project)
    (h : ¬(t.look here (Path.ofText folder / project) = .ok none ∧ Passes here tools s ∧
      ∃ t₁, Tree.makeDirectories false here (Path.ofText folder / project) t = (.ok (), t₁))) :
    Ends here tools (create project folder fs s) t none := by
  rw [create_eq]
  cases hlook : t.look here (Path.ofText folder / project) with
  | error f => exact (Ends.at?_error hlook).stop _
  | ok n =>
      refine (Ends.at?_ok hlook).bind ?_
      cases n with
      | some n => exact (Ends.throw _).stop _
      | none =>
          by_cases hpasses : Passes here tools s
          · obtain ⟨ws, hws⟩ := reviewAll_ends here tools t hfs
            refine checked_ends hpasses (hws.bind (.bind (.tell _) (.bind (.tell _) ?_)))
            obtain ⟨drafts, hdrafts, -, -⟩ := drafts_ok (s := s) hp hfs
            rw [hdrafts]
            refine .bind (.ofExcept _) (.stop ?_ _)
            rcases hmade : Tree.makeDirectories false here (Path.ofText folder / project) t with ⟨r, t₁⟩
            cases r with
            | ok u => exact absurd ⟨hlook, hpasses, t₁, hmade⟩ h
            | error e => exact .change_error (congrArg Prod.fst hmade)
          · exact checked_fails hpasses

variable {l : Location} {r : Registry}

/-- The tree holds, below `root`, the entry point and the README of a registry. -/
structure Holds (here : Location) (root : Path) (l : Location) (r : Registry) (s : Settings) (t : Tree) : Prop
    extends Rooted here root l t where
  server : Paved t l ["Server"]
  entryPoint : node? t (l ++ ["Server", "index.ts"]) = some (.file (.text (EntryPoint.render r s).content))
  readme : node? t (l ++ ["README.md"]) = some (.file (.text (Readme.document r s).content))
  entryFits : Fits root ["Server", "index.ts"]
  readmeFits : Fits root ["README.md"]
  manifestFits : Fits root ["package.json"]

theorem Holds.paved (h : Holds here root l r s t) : Paved t l [] := by
  intro q hq
  rw [List.prefix_nil.1 hq, List.append_nil, h.node?_eq]

theorem unifyBreaks_eq {cs : List Char} (h : '\r' ∉ cs) : Content.unifyBreaks cs = cs := by
  fun_induction Content.unifyBreaks cs with
  | case1 => exact absurd (by simp) h
  | case2 => exact absurd (by simp) h
  | case3 c cs _ _ ih => rw [ih fun hm => h (by simp [hm])]
  | case4 => rfl

theorem read_text {c : String} (h : '\r' ∉ c.toList) : (Content.text c).read = .ok c := by
  rw [Content.read, Content.readBy, unifyBreaks_eq h, String.ofList_toList]

theorem Holds.file?_entryPoint (h : Holds here root l r s t) :
    Ends here tools (Run.file? (root / EntryPoint.path)) t
      (some (some (.text (EntryPoint.render r s).content), t)) := by
  have hpath : root / EntryPoint.path = root.below (["Server"] ++ ["index.ts"]) :=
    Path.div_eq_below root (by decide +kernel)
  have hlook := look_below h.toRooted h.entryFits (by decide) h.server
  rw [hpath]
  have hfile := Ends.file?_ok tools hlook
  rwa [List.cons_append, List.nil_append, h.entryPoint] at hfile

theorem Holds.readFile?_readme (h : Holds here root l r s t) (hr : r.Lasting)
    (hs : Text.IsWord s.apiPrefix.toList) :
    Ends here tools (readFile? (root / Readme.path)) t (some (some (Readme.document r s).content, t)) := by
  have hpath : root / Readme.path = root.below ([] ++ ["README.md"]) :=
    Path.div_eq_below root (by decide +kernel)
  have hlook := look_below h.toRooted h.readmeFits (by decide) h.paved
  have hfile := Ends.file?_ok tools hlook
  have hread := read_text (Readme.noReturn_document (s := s) hr.isName hs hr.projectReturn hr.sampleReturn)
  rw [List.nil_append, h.readme] at hfile
  rw [hpath, readFile?]
  refine hfile.bind ?_
  dsimp only [Option.bind_some, Node.content?]
  rw [hread]
  exact .bind (.ofExcept _) (.pure _)

theorem Holds.projectName_ends (tools : Toolchain) (h : Holds here root l r s t) :
    ∃ name, Ends here tools (projectName root) t (some (name, t)) := by
  have hpath : root / Manifest.path = root.below ([] ++ ["package.json"]) :=
    Path.div_eq_below root (by decide +kernel)
  have hlook := look_below h.toRooted h.manifestFits (by decide) h.paved
  have hfile := Ends.file?_ok tools hlook
  let manifest := (node? t (l ++ ([] ++ ["package.json"]))).bind Node.content?
  let folder := ((resolved here root).getLast?).getD ""
  refine ⟨((manifest.map Manifest.name).bind Except.toOption).join.getD (.plain folder),
    .readWorld (fun w hw _ => by rw [hw]) ?_⟩
  rw [if_neg (by simp [h.noNull]), hpath]
  refine hfile.bind ?_
  rcases manifest.map Manifest.name with _ | fault | name
  · exact .pure _
  · exact .bind (.tell _) (.pure _)
  · exact .pure _

theorem Holds.loadRegistry_ends (tools : Toolchain) (h : Holds here root l r s t) (hr : r.Lasting)
    (hs : Text.IsWord s.apiPrefix.toList) :
    ∃ loaded, Ends here tools (loadRegistry root (.text (EntryPoint.render r s).content)) t (some (loaded, t)) ∧
      loaded.shown = r ∧ loaded.coded = r := by
  obtain ⟨name, hname⟩ := h.projectName_ends tools
  have hread := read_text (EntryPoint.noReturn_render (s := s) hr.isName hs)
  refine ⟨name.map (Registry.load (EntryPoint.render r s).content (some (Readme.document r s).content)), ?_,
    by rw [Spelled.shown_map, hr.load_eq hs], by rw [Spelled.coded_map, hr.load_eq hs]⟩
  rw [loadRegistry]
  refine (h.readFile?_readme hr hs).bind ?_
  rw [hread]
  exact .bind (.ofExcept _) (hname.bind (.bind (.tell _) (.bind (.tell _) (.pure _))))

theorem registerFeature_ends (hf : f.Sound) :
    Ends here tools (registerFeature r f) t (some (r.register f.name f.sample, t)) := by
  rw [registerFeature, hf.maps.ofFields_eq]
  refine .bind (.tell _) (.bind (.ofExcept _) ?_)
  dsimp only
  split
  · exact .bind (.tell _) (.bind (.tell _) (.pure _))
  · exact .pure _

theorem addedDocuments_eq (hr : r.Lasting) (hf : f.Sound) :
    addedDocuments r f s = .ok (f.own s ++ [EntryPoint.render r s, Readme.document r s]) := by
  rw [addedDocuments, Feature.documents_eq hf.maps hf.isName, Readme.render_eq hr.isName]
  rfl

theorem addedDrafts_ok {project : Spelled String} (hshown : project.shown = r.project) (hcoded : project.coded = r.project)
    (hr : r.Lasting) (hf : f.Sound) :
    ∃ drafts, addedDrafts r project f s = .ok drafts ∧
      drafts.map Draft.shown = f.own s ++ [EntryPoint.render r s, Readme.document r s] ∧
      ∀ d ∈ drafts, d.content.IsText := by
  refine Draft.render_agreed ?_ ?_
  · rw [Spelled.coded_both, Spelled.shown_both, hshown, hcoded]
    rfl
  · rw [Spelled.shown_both, hshown]
    exact addedDocuments_eq hr hf

theorem add_ends {name : String} {spec : Option String} (hpasses : Passes here tools s)
    (hfolder : Path.ofText folder = root) (h : Holds here root l r s t) (hr : r.Lasting)
    (hs : Text.IsWord s.apiPrefix.toList) (hf : f.Sound) (hbuild : Feature.build name spec s.defaultFields = f) :
    ∃ g, Ends here tools (add folder name spec s) t
      ((lay here root t (addSteps (r.register f.name f.sample) f s)).map (g, ·)) := by
  have hname : f.name = name := by rw [← hbuild]; rfl
  have hf' : ∀ g ∈ [f], g.Sound := fun g hg => List.mem_singleton.1 hg ▸ hf
  obtain ⟨ws, hws⟩ := reviewAll_ends here tools t hf'
  have hregistered : (r.register f.name f.sample).Lasting := hr.register hf.isName (Data.json_isPhrase _)
  obtain ⟨loaded, hloaded, hshown, hcoded⟩ := h.loadRegistry_ends tools hr hs
  have hproject : (loaded.map Registry.project).shown = (r.register f.name f.sample).project := by
    rw [Spelled.shown_map, hshown]
    rfl
  have hprojectCoded : (loaded.map Registry.project).coded = (r.register f.name f.sample).project := by
    rw [Spelled.coded_map, hcoded]
    rfl
  obtain ⟨drafts, hdrafts, hdocs, htext⟩ := addedDrafts_ok (s := s) hproject hprojectCoded hregistered hf
  have hinside : ∀ d ∈ drafts, Path.Inside d.path := by
    intro d hd
    have hmem : d.shown ∈ drafts.map Draft.shown := List.mem_map_of_mem hd
    rw [hdocs] at hmem
    rcases List.mem_append.1 hmem with hd | hd
    · exact inside_own hf.isEntry d.shown hd
    · exact inside_common "" _ s d.shown (List.mem_append_right _ hd)
  refine ⟨⟨root, drafts.map Draft.shown, ws⟩, ?_⟩
  rw [add, hfolder, Spelled.shown_plain, hbuild]
  refine h.file?_entryPoint.bind (checked_ends hpasses ?_)
  refine .bind (.tell _) (hws.bind (hloaded.bind (.bind (.tell _) ?_)))
  rw [hshown]
  refine (registerFeature_ends hf).bind (.bind (.tell _) ?_)
  rw [hdrafts, ← hname, addSteps, ← hdocs, lay_append, Option.map_bind]
  refine .bind (.ofExcept _) ((makeFolders_ends fun d hd =>
    (inside_directories hf.isEntry d hd).relative).andThen fun t₁ _ => ?_)
  exact (putDown_ends (fun d hd => (hinside d hd).relative) (fun d hd => (hinside d hd).ne_nil) htext).finish
    fun _ => .bind (.tell _) (.pure _)

end Generation

end ApiScaffold
