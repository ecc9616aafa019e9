import ApiScaffold.Proofs.Generation.Fresh
import ApiScaffold.Proofs.Generation.Success
import ApiScaffold.Proofs.Project.Manifest
import ApiScaffold.Proofs.Registry.TextFile

namespace ApiScaffold

namespace Project

variable {name : String} {fs : List Feature} {s : Settings} {docs : List Document}

theorem maps_of_documents (h : documents name fs s = .ok docs) : ∀ f ∈ fs, f.Maps :=
  fun f hf => (forall_of_documents h f hf).1

theorem documents_eq_ok (hn : ∀ f ∈ fs, Feature.IsName f.name) (hname : '\n' ∉ name.toList)
    (h : documents name fs s = .ok docs) :
    docs = common name (.ofFeatures name fs) s ++ fs.flatMap fun f => f.own s :=
  Except.ok.inj (h.symm.trans
    (documents_named (maps_of_documents h) hn (Registry.legible_ofFeatures hname hn).isName))

end Project

namespace Generation

open Run Text

variable {w w' w₁ w₂ : World} {g g' : Generated} {project folder name : String} {spec : Option String}
  {fs : List Feature} {s : Settings} {r : Registry} {f : Feature} {root : Path} {docs : List Document}

theorem addedDocuments_eq_ok (hr : r.Legible) (hmaps : f.Maps) (hn : Feature.IsName f.name)
    (h : addedDocuments r f s = .ok docs) : docs = f.own s ++ [EntryPoint.render r s, Readme.document r s] := by
  rw [addedDocuments, Feature.documents_eq hmaps hn, Readme.render_eq hr.isName] at h
  exact (Except.ok.inj h).symm

theorem name_package (hne : project ≠ "") (s : Settings) :
    Manifest.name (.text (SharedDocument.package.content (.ofProject project s))) = .ok (some project) := by
  rw [Manifest.name, read_text (Manifest.noReturn_package project s)]
  exact Manifest.nameIn_package hne s

/-- A project whose documents show a registry, and whose manifest gives its name. -/
structure Stored (here : Location) (root : Path) (t : Tree) (project : String) (r : Registry) (s : Settings) :
    Prop where
  rooted : ∃ l, Tree.Rooted here root l t
  displays : Displays here root t (EntryPoint.render r s).content (Readme.document r s).content
  declares : Declares here root t project

theorem declares_of_stands {here l : Location} {t : Tree} (h : g.Stands here t) (hroot : Tree.Rooted here g.root l t)
    (hne : project ≠ "") {after : List Document} (hdocs : g.documents = Project.common project r s ++ after)
    (hafter : ∀ d ∈ after, ∃ f : Feature, Path.IsEntry f.name ∧ d ∈ f.own s) :
    Declares here g.root t project := by
  have hparts : (Path.ofText (SharedDocument.package.document (.ofProject project s)).path).parts =
      ["package.json"] := by
    change (Path.ofText Manifest.path).parts = _
    decide +kernel
  have hfirst : g.documents = [] ++ SharedDocument.package.document (.ofProject project s) ::
      ((Project.common project r s).tail ++ after) := hdocs
  have hcommon : ∀ d ∈ (Project.common project r s).tail, (Path.ofText d.path).parts ≠ ["package.json"] := by
    have hshared : ∀ k ∈ SharedDocument.all.tail, (Path.ofText k.path).parts ≠ ["package.json"] := by decide +kernel
    have hentry : (Path.ofText EntryPoint.path).parts ≠ ["package.json"] := by decide +kernel
    have hreadme : (Path.ofText Readme.path).parts ≠ ["package.json"] := by decide +kernel
    have htail : (Project.common project r s).tail =
        SharedDocument.all.tail.map (SharedDocument.document (.ofProject project s)) ++
          [EntryPoint.render r s, Readme.document r s] := rfl
    intro d hd
    rw [htail, List.mem_append] at hd
    rcases hd with hd | hd
    · obtain ⟨k, hk, rfl⟩ := List.mem_map.1 hd
      exact hshared k hk
    · rcases List.mem_pair.1 hd with rfl | rfl
      · exact hentry
      · exact hreadme
  have hlook := look_of_stands h hroot hfirst (by rw [hparts]; decide) (inside_common project r s)
    (fun d hd => by rw [hparts]; exact hcommon d hd) hafter
  exact ⟨_, hlook, name_package hne s⟩

/-- A created project shows the registry of its features. -/
theorem create_stored (hfs : ∀ f ∈ fs, Feature.IsIdentifier f.name) (hne : project ≠ "") (hline : '\n' ∉ project.toList)
    (h : ((create project folder fs s).run w).run = (.ok g, w')) :
    Path.ofText g.root.text = g.root ∧ Stored w'.here g.root w'.tree project (.ofFeatures project fs) s := by
  obtain ⟨hroot, hdocs, hhere, drafts, hdrafts, happly⟩ := create_eq_ok h
  have hdocuments := Project.documents_eq_ok (fun f hf => (hfs f hf).isName) hline hdocs
  have hafter : ∀ d ∈ fs.flatMap fun f => f.own s, ∃ f : Feature, Path.IsEntry f.name ∧ d ∈ f.own s := by
    intro d hd
    obtain ⟨f, hf, hd⟩ := List.mem_flatMap.1 hd
    exact ⟨f, (hfs f hf).isEntry, hd⟩
  obtain ⟨t₁, hmade, hrest⟩ := Tree.applyAll_cons_ok happly
  obtain ⟨l, hrooted⟩ := Tree.rooted_of_makeDirectories hmade
  have hkeeps := Tree.keeps_applyAll w.here t₁ (folderActions g.root coreFolders ++
    (folderActions g.root ((fs.map Feature.name).flatMap Feature.directories) ++ draftActions g.root drafts))
  rw [hrest] at hkeeps
  have hstands : g.Stands w.here w'.tree := by
    rw [← List.append_assoc] at hrest
    exact Generated.stands_of_applyAll hdrafts hrest
  have hfolder : Path.ofText g.root.text = g.root := by
    rw [hroot]
    exact Path.ofText_text
      (Path.isPart_join (fun _ => Path.isPart_of_mem_parts) fun _ => Path.isPart_of_mem_parts)
  rw [hhere]
  exact ⟨hfolder, ⟨l, hrooted.of_keeps hkeeps⟩, displays_of_stands hstands (hrooted.of_keeps hkeeps) hdocuments hafter,
    declares_of_stands hstands (hrooted.of_keeps hkeeps) hne hdocuments hafter⟩

/-- An addition shows the registry again, with the feature in it. -/
theorem add_displays (hr : r.Legible) (hs : IsWord s.apiPrefix.toList) (hname : Feature.IsIdentifier name)
    (hline : '\n' ∉ project.toList) (hstored : Stored w.here (Path.ofText folder) w.tree project r s)
    (h : ((add folder name spec s).run w).run = (.ok g, w')) :
    ∃ p sample, ((⟨p, r.features⟩ : Registry).register name sample).Legible ∧
      Displays w'.here (Path.ofText folder) w'.tree
        (EntryPoint.render ((⟨p, r.features⟩ : Registry).register name sample) s).content
        (Readme.document ((⟨p, r.features⟩ : Registry).register name sample) s).content := by
  obtain ⟨hroot, hhere, ⟨drafts, hdrafts, happly⟩, text, lines, htext, hlines, f, rfl, hmaps, hdocs⟩ :=
    add_eq_ok hstored.displays hstored.declares h
  obtain ⟨p, hp, hload⟩ := hr.load_read hs hline htext hlines
  have hloaded : (⟨p, r.features⟩ : Registry).Legible := ⟨hr.isName, hr.nodup, hp, hr.sampleLine, hr.sampleReturn⟩
  have hadded := hloaded.register hname.isName (Data.json_isPhrase _ : IsPhrase f.sample.toList)
  rw [hload] at hdocs
  have hdocuments := addedDocuments_eq_ok hadded hmaps hname.isName hdocs
  obtain ⟨l, hrooted⟩ := hstored.rooted
  have hkeeps := Tree.keeps_applyAll w.here w.tree (addActions f.name g.root drafts)
  rw [happly] at hkeeps
  have hstands : g.Stands w.here w'.tree := Generated.stands_of_applyAll hdrafts happly
  rw [← hroot] at hrooted
  have hdisplays := displays_of_stands hstands (hrooted.of_keeps hkeeps)
    (hdocuments.trans (List.append_nil _).symm) fun d hd => absurd hd List.not_mem_nil
  rw [hhere, ← hroot]
  exact ⟨p, f.sample, hadded, hdisplays⟩

/-- The text is the entry point that wires the named features in their order, and is read as such. -/
def Wires (s : Settings) (text : String) (ns : List String) : Prop :=
  EntryPoint.names text = ns ∧ ∃ r : Registry, r.names = ns ∧ text = (EntryPoint.render r s).content

theorem wires_render (hr : r.Legible) (hs : IsWord s.apiPrefix.toList) :
    Wires s (EntryPoint.render r s).content r.names :=
  ⟨EntryPoint.names_render hr.isName hr.nodup hs, r, rfl, rfl⟩

/-- Adding a feature to a created project keeps the sample of every other one, as the README shows it, and the entry
point wires them all in the same order. -/
theorem add_keeps_samples (hfs : ∀ f ∈ fs, Feature.IsIdentifier f.name) (hnodup : (fs.map Feature.name).Nodup)
    (hname : Feature.IsIdentifier name) (hne : project ≠ "") (hline : '\n' ∉ project.toList)
    (hs : IsWord s.apiPrefix.toList) (hcreate : ((create project folder fs s).run w).run = (.ok g, w₁))
    (hadd : ((add g.root.text name spec s).run w₁).run = (.ok g', w₂)) :
    ∃ entry readme entry' readme', Displays w₁.here g.root w₁.tree entry readme ∧
      Displays w₂.here g.root w₂.tree entry' readme' ∧ Wires s entry (fs.map Feature.name) ∧
      Wires s entry' (if name ∈ fs.map Feature.name then fs.map Feature.name else fs.map Feature.name ++ [name]) ∧
      ∀ f ∈ fs, f.name ≠ name → Readme.Shows s readme f.name f.sample ∧ Readme.Shows s readme' f.name f.sample := by
  obtain ⟨hfolder, hstored⟩ := create_stored hfs hne hline hcreate
  have hr := Registry.legible_ofFeatures hline fun f hf => (hfs f hf).isName
  have hwires := wires_render hr hs
  rw [← hfolder] at hstored
  obtain ⟨p, sample, hr', hdisplays⟩ := add_displays hr hs hname hline hstored hadd
  have hwires' := wires_render hr' hs
  rw [hfolder] at hstored hdisplays
  have hfeatures := congrArg Registry.features (Registry.ofFeatures_eq project hnodup)
  have hnames : (Registry.ofFeatures project fs).names = fs.map Feature.name := by
    rw [Registry.ofFeatures_eq project hnodup, Registry.names, Keyed.keys, List.map_map]
    rfl
  rw [Registry.names_register] at hwires'
  rw [hnames] at hwires
  refine ⟨_, _, _, _, hstored.displays, hdisplays, hwires, hnames ▸ hwires', fun f hf hother => ?_⟩
  have hmem : (f.name, f.sample) ∈ (Registry.ofFeatures project fs).features := by
    rw [hfeatures]
    exact List.mem_map_of_mem hf
  refine ⟨Readme.shows_document hr hs hmem, Readme.shows_document hr' hs (Keyed.mem_of_get? ?_)⟩
  exact (Keyed.get?_put_of_ne hother _ _).trans (Keyed.get?_of_mem hr.nodup hmem)

theorem grow_one_eq_ok {u : Unit} (h : ((grow project folder fs [(name, spec)] s).run w).run = (.ok u, w₂)) :
    ∃ g w₁ g', ((create project folder fs s).run w).run = (.ok g, w₁) ∧
      ((add g.root.text name spec s).run w₁).run = (.ok g', w₂) := by
  obtain ⟨g, w₁, hcreate, hlater⟩ := Run.bind_eq_ok h
  obtain ⟨v, w₃, hone, hnone⟩ := Run.bind_eq_ok hlater
  obtain ⟨g', w₄, hadd, hpure⟩ := Run.bind_eq_ok hone
  cases hpure
  cases hnone
  exact ⟨g, w₁, g', hcreate, hadd⟩

theorem exists_shop :
    let s : Settings := { Settings.standard with checkEnvironment := false, installDependencies := false }
    let w : World := .fresh [(["home"], .directory)] ["home"] .bare
    ∃ g w₁ g' w₂,
      ((create "Corner Shop" "." [⟨"user", [⟨"name", "string", "minlength=3"⟩]⟩] s).run w).run = (.ok g, w₁) ∧
      ((add g.root.text "order" (some "total:number") s).run w₁).run = (.ok g', w₂) := by
  intro s w
  have hend : ∀ c ∈ "Corner Shop".toList.getLast?, Text.isBlank c = false := by
    rintro c ⟨⟩
    rfl
  have huser : Feature.IsShortIdentifier "user" := ⟨by decide, by decide +kernel⟩
  have horder : Feature.IsShortIdentifier "order" := ⟨by decide, by decide +kernel⟩
  have hfirst : ∀ f ∈ [(⟨"user", [⟨"name", "string", "minlength=3"⟩]⟩ : Feature)],
      Feature.IsShortIdentifier f.name ∧ f.Maps := fun f hf => by
    rw [List.mem_singleton.1 hf]
    exact ⟨huser, _, rfl⟩
  have hlater : ∀ q ∈ [("order", some "total:number")],
      Feature.IsShortIdentifier q.1 ∧ (Feature.build q.1 q.2 s.defaultFields).Maps := fun q hq => by
    rw [List.mem_singleton.1 hq]
    exact ⟨horder, _, rfl⟩
  have hroot : Path.ofText "." / "Corner Shop" = ⟨false, ["Corner Shop"]⟩ := by decide +kernel
  have hvacant : Tree.Vacant w.here (Path.ofText "." / "Corner Shop") ["home", "Corner Shop"] w.tree := by
    rw [hroot]
    refine ⟨rfl, fun q => ?_⟩
    have hhome : ["home"] ≠ ["home", "Corner Shop"] ++ q := fun h => by cases h
    change Keyed.get? (["home", "Corner Shop"] ++ q) [(["home"], Node.directory)] = none
    rw [Keyed.get?, if_neg hhome]
    rfl
  have hroomy : (Path.ofText "." / "Corner Shop").Roomy := by
    rw [hroot]
    exact ⟨by decide +kernel, by decide +kernel⟩
  have hpasses : Passes w.here w.tools s := fun h => by cases h
  obtain ⟨t, hgrow⟩ := grow_succeeds hvacant hroomy hpasses ⟨by decide, by decide, by decide, hend⟩ (by decide)
    hfirst hlater
  obtain ⟨rs, cs, hrun⟩ := hgrow w.complaint [] []
  obtain ⟨g, w₁, g', hcreate, hadd⟩ := grow_one_eq_ok hrun
  exact ⟨g, w₁, g', _, hcreate, hadd⟩

theorem add_keeps_samples_shop :
    let s : Settings := { Settings.standard with checkEnvironment := false, installDependencies := false }
    let w : World := .fresh [(["home"], .directory)] ["home"] .bare
    let user : Feature := ⟨"user", [⟨"name", "string", "minlength=3"⟩]⟩
    ∃ g w₁ g' w₂, ((create "Corner Shop" "." [user] s).run w).run = (.ok g, w₁) ∧
      ((add g.root.text "order" (some "total:number") s).run w₁).run = (.ok g', w₂) ∧
      ∃ entry readme entry' readme', Displays w₁.here g.root w₁.tree entry readme ∧
        Displays w₂.here g.root w₂.tree entry' readme' ∧ Wires s entry ["user"] ∧ Wires s entry' ["user", "order"] ∧
        Readme.Shows s readme "user" "\x7b\"name\": \"sample_name\"\x7d" ∧
        Readme.Shows s readme' "user" "\x7b\"name\": \"sample_name\"\x7d" := by
  intro s w user
  have hsample : user.sample = "\x7b\"name\": \"sample_name\"\x7d" := by decide +kernel
  have huser : Feature.IsIdentifier user.name := by decide
  have horder : Feature.IsIdentifier "order" := by decide
  obtain ⟨g, w₁, g', w₂, hcreate, hadd⟩ := exists_shop
  obtain ⟨entry, readme, entry', readme', hbefore, hafter, hwires, hwires', hshows⟩ := add_keeps_samples
    (fun f hf => List.mem_singleton.1 hf ▸ huser) (by decide) horder (by decide) (by decide) (by decide) hcreate hadd
  obtain ⟨hshown, hshown'⟩ := hshows user List.mem_cons_self (by decide)
  rw [hsample] at hshown hshown'
  exact ⟨g, w₁, g', w₂, hcreate, hadd, entry, readme, entry', readme', hbefore, hafter, hwires, hwires', hshown,
    hshown'⟩

end Generation

end ApiScaffold
