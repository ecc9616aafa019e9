import ApiScaffold.Proofs.Generation.Runs

namespace ApiScaffold

namespace Generation

open Run ApiScaffold.Tree

variable {here : Location} {tools : Toolchain} {t t₁ t₂ : Tree} {root : Path} {project folder : String}
  {s : Settings} {f : Feature} {fs : List Feature} {l : Location} {r : Registry} {q : List String}

/-- Creates a project with the features `first` and adds the others, each given by its name and its fields as
written, in turn. -/
def grow (project folder : String) (first : List Feature) (later : List (String × Option String))
    (s : Settings) : Run Unit := do
  let g ← create project folder first s
  later.forM fun q => do
    let _ ← add g.root.text q.1 q.2 s

def growthSteps (project : String) (s : Settings) : List Feature → List Feature → List Step
  | _, [] => []
  | fs, f :: later =>
      addSteps (.ofFeatures project (fs ++ [f])) f s ++ growthSteps project s (fs ++ [f]) later

theorem proper_folderSteps (hf : f.Sound) : ∀ x ∈ folderSteps f, x.Proper := by
  intro x hx
  obtain ⟨p, hp, rfl⟩ := List.mem_map.1 hx
  exact (inside_directories hf.isEntry p hp).folder

theorem proper_documents {ds : List Document} (h : ∀ d ∈ ds, Path.Inside d.path) :
    ∀ x ∈ ds.map Step.ofDocument, x.Proper := by
  intro x hx
  obtain ⟨d, hd, rfl⟩ := List.mem_map.1 hx
  exact (h d hd).document

theorem forall_mem_append {α : Type} {P : α → Prop} {as bs : List α} (ha : ∀ x ∈ as, P x)
    (hb : ∀ x ∈ bs, P x) : ∀ x ∈ as ++ bs, P x := by
  intro x hx
  exact (List.mem_append.1 hx).elim (ha x) (hb x)

theorem proper_createSteps (project : String) (s : Settings) (hfs : ∀ f ∈ fs, f.Sound) :
    ∀ x ∈ createSteps project fs s, x.Proper := by
  refine forall_mem_append (forall_mem_append (fun x hx => ?_) fun x hx => ?_) (proper_documents
    (forall_mem_append (inside_common project _ s) fun d hd => ?_))
  · obtain ⟨p, hp, rfl⟩ := List.mem_map.1 hx
    exact (inside_core p hp).folder
  · obtain ⟨f, hf, hx⟩ := List.mem_flatMap.1 hx
    exact proper_folderSteps (hfs f hf) x hx
  · obtain ⟨f, hf, hd⟩ := List.mem_flatMap.1 hd
    exact inside_own (hfs f hf).isEntry d hd

theorem proper_addSteps (hf : f.Sound) : ∀ x ∈ addSteps r f s, x.Proper := by
  refine forall_mem_append (proper_folderSteps hf) (proper_documents
    (forall_mem_append (inside_own hf.isEntry) fun d hd => ?_))
  exact inside_common "" r s d (List.mem_append_right _ hd)

theorem proper_growthSteps (project : String) (s : Settings) (fs : List Feature) {later : List Feature}
    (h : ∀ f ∈ later, f.Sound) : ∀ x ∈ growthSteps project s fs later, x.Proper := by
  induction later generalizing fs with
  | nil => exact fun x hx => by cases hx
  | cons f later ih =>
      exact forall_mem_append (proper_addSteps (h f (by simp))) (ih _ fun g hg => h g (by simp [hg]))

theorem written_folders (ps : List String) (q : List String) : written (ps.map Step.ofFolder) q = none := by
  rw [written_eq_none]
  intro x hx
  obtain ⟨p, -, rfl⟩ := List.mem_map.1 hx
  rfl

theorem written_folderSteps (fs : List Feature) (q : List String) :
    written (fs.flatMap folderSteps) q = none := by
  rw [written_eq_none]
  intro x hx
  obtain ⟨f, -, hx⟩ := List.mem_flatMap.1 hx
  obtain ⟨p, -, rfl⟩ := List.mem_map.1 hx
  rfl

def shown (r : Registry) (s : Settings) : List Step :=
  [.file ["Server", "index.ts"] (EntryPoint.render r s).content,
    .file ["README.md"] (Readme.document r s).content]

theorem shown_eq (r : Registry) (s : Settings) :
    [EntryPoint.render r s, Readme.document r s].map Step.ofDocument = shown r s := by
  have hentry : (Path.ofText EntryPoint.path).parts = ["Server", "index.ts"] := by decide +kernel
  have hreadme : (Path.ofText Readme.path).parts = ["README.md"] := by decide +kernel
  change [Step.file (Path.ofText EntryPoint.path).parts _, Step.file (Path.ofText Readme.path).parts _] = _
  rw [hentry, hreadme]
  rfl

def ownSteps (s : Settings) (f : Feature) : List Step := (f.own s).map Step.ofDocument

def sharedSteps (project : String) (s : Settings) : List Step :=
  (Project.sharedDocuments project s).map Step.ofDocument

theorem createSteps_eq : createSteps project fs s = coreFolders.map Step.ofFolder ++ fs.flatMap folderSteps ++
    (sharedSteps project s ++ shown (.ofFeatures project fs) s ++ fs.flatMap (ownSteps s)) := by
  rw [createSteps, Project.common, List.map_append, List.map_append, shown_eq, List.map_flatMap]
  rfl

theorem addSteps_eq : addSteps r f s = folderSteps f ++ (ownSteps s f ++ shown r s) := by
  rw [addSteps, List.map_append, shown_eq]
  rfl

theorem written_shown (r : Registry) (s : Settings) (q : List String) :
    written (shown r s) q = if q = ["README.md"] then some (Readme.document r s).content
      else if q = ["Server", "index.ts"] then some (EntryPoint.render r s).content else none := by
  rw [show shown r s = [_] ++ [_] from rfl, written_append, written_file, written_file]
  by_cases hr : q = ["README.md"]
  · simp [hr]
  · by_cases he : q = ["Server", "index.ts"]
    · simp [he]
    · simp [hr, he, Ne.symm hr, Ne.symm he]

theorem needs_shown (r r' : Registry) (s : Settings) (q : List String) :
    Needs (shown r s) q ↔ Needs (shown r' s) q := by
  simp [Needs, shown, Step.above]

theorem written_own (hf : Path.IsEntry f.name) (hq : written (shown r s) q ≠ none) :
    written (ownSteps s f) q = none := by
  have hplace (k : FeatureDocument) : k.place f.name ≠ q := by
    rintro rfl
    rw [written_shown, if_neg (by cases k <;> simp [FeatureDocument.place]),
      if_neg (by cases k <;> simp [FeatureDocument.place])] at hq
    exact hq rfl
  rw [written_eq_none]
  intro x hx
  obtain ⟨d, hd, rfl⟩ := List.mem_map.1 hx
  obtain ⟨k, hparts⟩ := own_place hf hd
  rw [Step.ofDocument, Step.text?, hparts, if_neg (hplace k)]

theorem written_owns (hfs : ∀ f ∈ fs, Path.IsEntry f.name) (hq : written (shown r s) q ≠ none) :
    written (fs.flatMap (ownSteps s)) q = none := by
  rw [written_eq_none]
  intro x hx
  obtain ⟨f, hf, hx⟩ := List.mem_flatMap.1 hx
  exact written_eq_none.1 (written_own (hfs f hf) hq) x hx

/-- Steps may be made again later, when no file that is written again is one of the files between. -/
theorem alike_redo {folders folders' shared old new own own' : List Step}
    (hfolders : ∀ q, written folders q = none) (hfolders' : ∀ q, written folders' q = none)
    (hneeds : ∀ q, Needs old q ↔ Needs new q) (hwritten : ∀ q, written old q ≠ none → written new q ≠ none)
    (hown : ∀ q, written new q ≠ none → written own q = none ∧ written own' q = none) :
    Alike (folders ++ (shared ++ old ++ own) ++ (folders' ++ (own' ++ new)))
      (folders ++ folders' ++ (shared ++ new ++ (own ++ own'))) := by
  constructor
  · intro q
    simp only [needs_append, hneeds]
    tauto
  · intro q
    simp only [written_append, hfolders, hfolders', Option.or_none]
    by_cases hnew : written new q = none
    · have hold : written old q = none := Classical.byContradiction fun h => hwritten q h hnew
      simp only [hnew, hold, Option.none_or, Option.or_assoc]
    · obtain ⟨h, h'⟩ := hown q hnew
      obtain ⟨c, hc⟩ := Option.ne_none_iff_exists'.1 hnew
      simp only [h, h', hc, Option.some_or, Option.none_or]

/-- Adding a feature comes to the same as having created the project with it, too. -/
theorem alike_addSteps (hfs : ∀ g ∈ fs ++ [f], g.Sound) :
    Alike (createSteps project fs s ++ addSteps (.ofFeatures project (fs ++ [f])) f s)
      (createSteps project (fs ++ [f]) s) := by
  have hfolders : ∀ q, written (coreFolders.map Step.ofFolder ++ fs.flatMap folderSteps) q = none := by
    intro q
    rw [written_append, written_folderSteps, written_folders, Option.or_none]
  have hwritten (q : List String) : written (shown (.ofFeatures project fs) s) q ≠ none →
      written (shown (.ofFeatures project (fs ++ [f])) s) q ≠ none := by
    rw [written_shown, written_shown]
    split
    · exact fun _ => Option.some_ne_none _
    · split
      · exact fun _ => Option.some_ne_none _
      · exact id
  have hown (q : List String) (hq : written (shown (.ofFeatures project (fs ++ [f])) s) q ≠ none) :
      written (fs.flatMap (ownSteps s)) q = none ∧ written (ownSteps s f) q = none :=
    ⟨written_owns (fun g hg => (hfs g (by simp [hg])).isEntry) hq, written_own (hfs f (by simp)).isEntry hq⟩
  rw [createSteps_eq, createSteps_eq, addSteps_eq, List.flatMap_append, List.flatMap_append,
    List.flatMap_singleton, List.flatMap_singleton, ← List.append_assoc (List.map _ _)]
  exact alike_redo hfolders (written_folders _) (needs_shown _ _ s) hwritten hown

theorem alike_growthSteps (project : String) (s : Settings) {later : List Feature}
    (hfs : ∀ g ∈ fs ++ later, g.Sound) :
    Alike (createSteps project fs s ++ growthSteps project s fs later)
      (createSteps project (fs ++ later) s) := by
  induction later generalizing fs with
  | nil => simpa [growthSteps] using Alike.refl _
  | cons f later ih =>
      rw [List.append_cons] at hfs ⊢
      rw [growthSteps, ← List.append_assoc]
      exact (alike_addSteps fun g hg => hfs g (List.mem_append_left later hg)).append.trans (ih hfs)

theorem noNull_below (q : List String) (hroot : root.hasNull = false) :
    (root.below q).hasNull = false ↔ ∀ x ∈ q, '\x00' ∉ x.toList := by
  rw [Path.hasNull_below, hroot, Bool.false_or, List.any_eq_false]
  simp only [List.contains_iff_mem]

theorem written_of_mem {ss : List Step} {c : String} (h : .file q c ∈ ss) : written ss q ≠ none := by
  intro hn
  have hfile := written_eq_none.1 hn _ h
  rw [Step.text?, if_pos rfl] at hfile
  cases hfile

theorem own_subset (hf : f ∈ fs) {k : FeatureDocument} (hname : Path.IsEntry f.name) :
    written (createSteps project fs s) (k.place f.name) ≠ none := by
  have hall : ∀ k : FeatureDocument, k ∈ FeatureDocument.all := by
    intro k
    cases k <;> decide
  refine written_of_mem (c := (k.document (f.sheet s)).content) ?_
  rw [createSteps_eq]
  refine List.mem_append_right _ (List.mem_append_right _ (List.mem_flatMap.2 ⟨f, hf, ?_⟩))
  refine List.mem_map.2 ⟨k.document (f.sheet s), List.mem_map_of_mem (hall k), ?_⟩
  exact congrArg (fun p => Step.file p _) (congrArg Path.parts (k.ofText_path hname))

theorem vouched_createSteps (project : String) (s : Settings) (hroot : root.hasNull = false)
    (hfs : ∀ f ∈ fs, f.Sound) : Vouched root (createSteps project fs s) := by
  rintro hw r ⟨x, hx, hr⟩
  refine (noNull_below r hroot).2 fun y hy => ?_
  have hy' : y ∈ x.above := hr.subset hy
  have hx' := hx
  rw [createSteps, List.mem_append, List.mem_append] at hx
  rcases hx with (hx | hx) | hx
  · obtain ⟨p, hp, rfl⟩ := List.mem_map.1 hx
    have hcore : ∀ p ∈ coreFolders, ∀ y ∈ (Path.ofText p).parts, '\x00' ∉ y.toList := by decide +kernel
    exact hcore p hp y hy'
  · obtain ⟨f, hf, hx⟩ := List.mem_flatMap.1 hx
    have hname := (hfs f hf).isEntry
    have hnull := (noNull_below _ hroot).1 (hw _ (own_subset (k := .container) hf hname)) f.name
      (by simp [FeatureDocument.place])
    obtain ⟨p, hp, rfl⟩ := List.mem_map.1 hx
    rw [Feature.directories_eq] at hp
    obtain ⟨q, hq, rfl⟩ := List.mem_map.1 hp
    have haround := Feature.places_around f.name q hq
    rw [Step.ofFolder, Path.ofText_intercalate fun x hx => ((haround x hx).isEntry hname).toIsPart] at hy'
    exact (haround y hy').noNull hnull
  · obtain ⟨d, hd, rfl⟩ := List.mem_map.1 hx
    exact (noNull_below _ hroot).1 (hw _ (written_of_mem hx')) y (List.dropLast_subset _ hy')

theorem Laid.paved {ss : List Step} (h : Laid t t₁ l ss) (hp : Possible root t l ss) (hq : Needs ss q) :
    Paved t₁ l q := by
  intro r hr
  obtain ⟨x, hx, hqx⟩ := hq
  have hneeds : Needs ss r := ⟨x, hx, hr.trans hqx⟩
  exact h.folder r hneeds (Classical.byContradiction fun hw => hp.apart r hw hneeds)

theorem holds_of_laid {ss : List Step} (hroot : Rooted here root l t) (hp : Possible root t l ss)
    (hl : Laid t t₁ l ss) (hss : Alike ss (createSteps project fs s)) (hfs : ∀ f ∈ fs, f.Sound) :
    Holds here root l (.ofFeatures project fs) s t₁ := by
  have hserver : Needs ss ["Server"] := by
    refine (hss.needs _).2 ⟨.ofFolder "Server", ?_, by decide +kernel⟩
    exact List.mem_append_left _ (List.mem_append_left _ (List.mem_map_of_mem (by decide)))
  have hwritten (q : List String) (c : String)
      (hq : written (shown (.ofFeatures project fs) s) q = some c) : written ss q = some c := by
    have hown := written_owns (fun f (hf : f ∈ fs) => (hfs f hf).isEntry)
      fun hn => Option.some_ne_none c (hq.symm.trans hn)
    rw [hss.written, createSteps_eq, written_append, written_append, written_append, hown, hq]
    rfl
  have hentry := hwritten ["Server", "index.ts"] _ (by rw [written_shown]; rfl)
  have hreadme := hwritten ["README.md"] _ (by rw [written_shown]; rfl)
  have hmanifest : written ss ["package.json"] ≠ none := by
    have hparts : (Path.ofText SharedDocument.package.path).parts = ["package.json"] := by decide +kernel
    rw [hss.written, ← hparts, createSteps_eq]
    refine written_of_mem (c := SharedDocument.package.content (.ofProject project s)) ?_
    refine List.mem_append_right _ (List.mem_append_left _ (List.mem_append_left _ ?_))
    exact List.mem_map_of_mem (f := Step.ofDocument) (List.mem_map_of_mem (by decide))
  have hsome {q : List String} {c : String} (h : written ss q = some c) : written ss q ≠ none :=
    fun e => Option.some_ne_none c (h.symm.trans e)
  exact ⟨hroot.of_keeps (hl.keeps hp), Laid.paved hl hp hserver, hl.file _ _ hentry, hl.file _ _ hreadme,
    hp.fileFits _ (hsome hentry), hp.fileFits _ (hsome hreadme), hp.fileFits _ hmanifest⟩

/-- What adding features in turn comes to, after steps that have laid down a project with others. -/
theorem additions_ends {ss : List Step} {later : List (String × Option String)}
    (hpasses : Passes here tools s) (hfolder : Path.ofText folder = root) (hroot : Rooted here root l t)
    (hp : Registry.IsTitle project) (hs : Text.IsWord s.apiPrefix.toList) (hfs : ∀ f ∈ fs, f.Sound)
    (hlater : ∀ q ∈ later, (Feature.build q.1 q.2 s.defaultFields).Sound) (hss : ∀ x ∈ ss, x.Proper)
    (halike : Alike ss (createSteps project fs s)) (hlay : lay here root t ss = some t₁) :
    Ends here tools (later.forM fun q => do
        let _ ← add folder q.1 q.2 s) t₁
      ((lay here root t₁ (growthSteps project s fs
        (later.map fun q => Feature.build q.1 q.2 s.defaultFields))).map ((), ·)) := by
  induction later generalizing fs ss t₁ with
  | nil => exact .pure ()
  | cons q later ih =>
      obtain ⟨f, hbuild⟩ : ∃ f, Feature.build q.1 q.2 s.defaultFields = f := ⟨_, rfl⟩
      have hf : f.Sound := hbuild ▸ hlater q (by simp)
      have hfs' : ∀ g ∈ fs ++ [f], g.Sound := forall_mem_append hfs fun g hg => List.mem_singleton.1 hg ▸ hf
      have hvouched := (vouched_createSteps project s hroot.noNull hfs).of_alike halike.symm
      obtain ⟨hpossible, hl⟩ := laid_of_lay hroot hss hvouched hlay
      have hholds := holds_of_laid hroot hpossible hl halike hfs
      have hlasting := Registry.lasting_ofFeatures hp fun g hg => (hfs g hg).isName
      obtain ⟨g, hadd⟩ := add_ends hpasses hfolder hholds hlasting hs hf hbuild
      rw [← Registry.ofFeatures_concat] at hadd
      rw [List.map_cons, hbuild, growthSteps, lay_append, Option.map_bind]
      refine Ends.andThen (a := ()) (hadd.finish fun _ => .pure _) fun t₂ ht₂ => ?_
      refine ih hfs' (fun q hq => hlater q (by simp [hq])) (forall_mem_append hss (proper_addSteps hf))
        ((halike.append).trans (alike_addSteps hfs')) ?_
      rw [lay_append, hlay]
      exact ht₂

theorem grow_ends {first : List Feature} {later : List (String × Option String)}
    (hfree : t.look here (Path.ofText folder / project) = .ok none) (hpasses : Passes here tools s)
    (hmade : Tree.makeDirectories false here (Path.ofText folder / project) t = (.ok (), t₁))
    (hp : Registry.IsTitle project) (hs : Text.IsWord s.apiPrefix.toList) (hfirst : ∀ f ∈ first, f.Sound)
    (hlater : ∀ q ∈ later, (Feature.build q.1 q.2 s.defaultFields).Sound) :
    Ends here tools (grow project folder first later s) t
      ((lay here (Path.ofText folder / project) t₁ (createSteps project first s ++ growthSteps project s first
        (later.map fun q => Feature.build q.1 q.2 s.defaultFields))).map ((), ·)) := by
  obtain ⟨l, hroot⟩ := rooted_of_makeDirectories hmade
  obtain ⟨g, hg, hcreate⟩ := create_ends hfree hpasses hmade hp hfirst
  have hfolder : Path.ofText g.root.text = Path.ofText folder / project := by
    rw [hg]
    exact Path.ofText_text
      (Path.isPart_join (fun _ => Path.isPart_of_mem_parts) fun _ => Path.isPart_of_mem_parts)
  rw [lay_append, Option.map_bind]
  refine hcreate.andThen fun t₂ ht₂ => ?_
  exact additions_ends hpasses hfolder hroot hp hs hfirst hlater (proper_createSteps project s hfirst)
    (.refl _) ht₂

/-- Runs with ends that agree succeed alike, and leave the same at every place. -/
theorem agree_of_ends {α β : Type} {x : Run α} {y : Run β} {o : Option (α × Tree)} {p : Option (β × Tree)}
    (hx : Ends here tools x t o) (hy : Ends here tools y t p) (hsome : o.isSome = p.isSome)
    (hnode : ∀ u ∈ o, ∀ v ∈ p, ∀ m, u.2.node? m = v.2.node? m) (say : String → String → String)
    (rs : List Record) (cs : List Toolchain.Call) :
    let u := (x.run ⟨t, here, tools, say, rs, cs⟩).run
    let v := (y.run ⟨t, here, tools, say, rs, cs⟩).run
    u.1.isOk = v.1.isOk ∧ (v.1.isOk → ∀ m, u.2.tree.node? m = v.2.tree.node? m) := by
  intro u v
  have hok : v.1.isOk = p.isSome := hy.isOk_eq say rs cs
  refine ⟨(hx.isOk_eq say rs cs).trans (hsome.trans hok.symm), fun hv => ?_⟩
  rw [hok] at hv
  obtain ⟨⟨b, t₂⟩, rfl⟩ := Option.isSome_iff_exists.1 hv
  obtain ⟨⟨a, t₁⟩, rfl⟩ := Option.isSome_iff_exists.1 (hsome.trans hv)
  have hxtree : u.2.tree = t₁ := hx.tree_eq say rs cs
  have hytree : v.2.tree = t₂ := hy.tree_eq say rs cs
  rw [hxtree, hytree]
  exact hnode (a, t₁) rfl (b, t₂) rfl

/-- A project created with some features, to which others are then added one by one, has the same files as one
created with all of them: the two ways succeed alike, and leave the same at every place. -/
theorem grow_eq_create {first : List Feature} {later : List (String × Option String)}
    (hp : Registry.IsTitle project) (hs : Text.IsWord s.apiPrefix.toList) (hfirst : ∀ f ∈ first, f.Sound)
    (hlater : ∀ q ∈ later, (Feature.build q.1 q.2 s.defaultFields).Sound) (folder : String) (w : World) :
    let all := first ++ later.map fun q => Feature.build q.1 q.2 s.defaultFields
    let batch := ((create project folder all s).run w).run
    let grown := ((grow project folder first later s).run w).run
    grown.1.isOk = batch.1.isOk ∧ (batch.1.isOk → ∀ m, grown.2.tree.node? m = batch.2.tree.node? m) := by
  intro all
  obtain ⟨t, here, tools, say, rs, cs⟩ := w
  have hall : ∀ f ∈ all, f.Sound := forall_mem_append hfirst fun f hf => by
    obtain ⟨q, hq, rfl⟩ := List.mem_map.1 hf
    exact hlater q hq
  by_cases hstart : t.look here (Path.ofText folder / project) = .ok none ∧ Passes here tools s ∧
      ∃ t₁, Tree.makeDirectories false here (Path.ofText folder / project) t = (.ok (), t₁)
  · obtain ⟨hfree, hpasses, t₁, hmade⟩ := hstart
    obtain ⟨l, hroot⟩ := rooted_of_makeDirectories hmade
    obtain ⟨g, -, hbatch⟩ := create_ends hfree hpasses hmade hp hall
    have hgrown := grow_ends hfree hpasses hmade hp hs hfirst hlater
    have halike := alike_growthSteps project s hall
    have hvouched := (vouched_createSteps project s hroot.noNull hall).of_alike halike.symm
    have hproper := forall_mem_append (proper_createSteps project s hfirst)
      (proper_growthSteps project s first fun f hf => hall f (List.mem_append_right _ hf))
    obtain ⟨hsome, hnode⟩ := lay_agree hroot hvouched hproper (proper_createSteps project s hall) halike
    refine agree_of_ends hgrown hbatch (by simpa using hsome) (fun u hu v hv => ?_) say rs cs
    obtain ⟨t₂, ht₂, rfl⟩ := Option.map_eq_some_iff.1 hu
    obtain ⟨t₃, ht₃, rfl⟩ := Option.map_eq_some_iff.1 hv
    exact hnode t₂ ht₂ t₃ ht₃
  · have hbatch := create_fails hall hp hstart
    have hgrown : Ends here tools (grow project folder first later s) t none :=
      (create_fails hfirst hp hstart).stop _
    exact agree_of_ends hgrown hbatch rfl (fun u hu => by cases hu) say rs cs

/-- A feature is added, and one that is there is added again with other fields. -/
theorem grow_eq_create_shop :
    let s : Settings := { Settings.standard with checkEnvironment := false }
    let w : World := .fresh [(["home"], .directory)] ["home"] .bare
    let first : List Feature := [⟨"user", [⟨"name", "string", "minlength=3"⟩]⟩]
    let later := [("order", some "total:number:min=1"), ("user", none)]
    let all := first ++ later.map fun q => Feature.build q.1 q.2 s.defaultFields
    let batch := ((create "Corner Shop" "." all s).run w).run
    let grown := ((grow "Corner Shop" "." first later s).run w).run
    grown.1.isOk = batch.1.isOk ∧ (batch.1.isOk → ∀ m, grown.2.tree.node? m = batch.2.tree.node? m) := by
  have hend : ∀ c ∈ "Corner Shop".toList.getLast?, Text.isBlank c = false := by
    rintro c ⟨⟩
    rfl
  refine grow_eq_create ⟨by decide, by decide, by decide, hend⟩ (by decide) (fun f hf => ?_)
    (fun q hq => ?_) "." _
  · rw [List.mem_singleton.1 hf]
    exact ⟨by decide, by decide, by decide, _, rfl⟩
  · rcases List.mem_pair.1 hq with rfl | rfl
    · exact ⟨by decide, by decide, by decide, _, rfl⟩
    · exact ⟨by decide, by decide, by decide, _, rfl⟩

end Generation

end ApiScaffold
