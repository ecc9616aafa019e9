import ApiScaffold.Proofs.Generation.Growth
import ApiScaffold.Proofs.Generation.Stages

namespace ApiScaffold

namespace Tree

variable {t : Tree} {l m : Location} {q : List String} {here : Location} {root p : Path}

theorem follow_ok (hdots : ".." ∉ q) (h : follow t l q = .ok m) : m = l ++ q := by
  induction q generalizing l with
  | nil =>
      cases h
      exact (List.append_nil _).symm
  | cons x q ih =>
      rw [follow] at h
      split at h
      · cases h
      · cases h
      · split at h
        · cases h
        · rw [next_eq fun e => hdots (by simp [e])] at h
          rw [ih (fun hm => hdots (List.mem_cons_of_mem x hm)) h, List.append_assoc]
          rfl

theorem Rooted.locate_ok (h : Rooted here root l t) (hdots : ".." ∉ q)
    (hm : locate t here (root.below q) = .ok m) : m = l ++ q := by
  rw [h.locate_below] at hm
  split at hm
  · cases hm
  · exact follow_ok hdots hm

theorem look_of_locate (hnull : p.hasNull = false) (h : locate t here p = .ok l) :
    look t here p = .ok (node? t l) := by
  rw [look, if_neg (by simp [hnull]), h]

end Tree

namespace Run

variable {α : Type} {x : Except Failure α} {w w' : World} {a : α}

theorem ofExcept_eq_ok (h : ((Run.ofExcept x).run w).run = (.ok a, w')) : x = .ok a ∧ w = w' := by
  cases x with
  | ok b =>
      cases h
      exact ⟨rfl, rfl⟩
  | error f => cases h

theorem at?_eq_ok {p : Path} {n : Option Node} (h : ((Run.at? p).run w).run = (.ok n, w')) :
    w.tree.look w.here p = .ok n ∧ w = w' := ofExcept_eq_ok h

theorem file?_eq_ok {p : Path} {c : Option Content} (h : ((Run.file? p).run w).run = (.ok c, w')) :
    ∃ n, w.tree.look w.here p = .ok n ∧ c = n.bind Node.content? ∧ w = w' := by
  obtain ⟨n, w₁, hat, hpure⟩ := bind_eq_ok h
  obtain ⟨hlook, rfl⟩ := at?_eq_ok hat
  cases hpure
  exact ⟨n, hlook, rfl, rfl⟩

theorem Quiet.guarded_eq_ok {c : Prop} [Decidable c] {x : Run Unit} {y : Unit → Run α} (hx : Quiet x)
    (h : ((if c then x >>= y else y ()).run w).run = (.ok a, w')) :
    ∃ w₁, w.Stays w₁ ∧ ((y ()).run w₁).run = (.ok a, w') := by
  split at h
  · obtain ⟨u, w₁, hstays, -, hy⟩ := hx.bind_eq_ok h
    exact ⟨w₁, hstays, hy⟩
  · exact ⟨w, .refl w, h⟩

end Run

namespace Generation

open Run

variable {w w' : World} {k : Plan} {g : Generated} {project folder name : String} {spec : Option String}
  {fs : List Feature} {s : Settings} {r : Registry} {f : Feature} {root : Path} {c : Content}

theorem build_eq_ok {x : Run Plan} {build : Plan → Run Generated} {acts : Path → List Draft → List Tree.Action}
    (hx : Quiet x) (hmakes : ∀ k : Plan, Makes (acts k.root k.drafts) (build k) (· = k.generated))
    (h : ((x >>= build).run w).run = (.ok g, w')) :
    ∃ k w₁, (x.run w).run = (.ok k, w₁) ∧ g = k.generated ∧ w'.here = w.here ∧
      Tree.applyAll w.here w.tree (acts k.root k.drafts) = (.ok (), w'.tree) := by
  obtain ⟨k, w₁, hstays, hplan, hbuild⟩ := hx.bind_eq_ok h
  rcases happly : Tree.applyAll w₁.here w₁.tree (acts k.root k.drafts) with ⟨e, t⟩
  cases e with
  | error e =>
      obtain ⟨e, w₂, hrun, -⟩ := (hmakes k).error happly
      rw [hrun] at hbuild
      cases hbuild
  | ok u =>
      obtain ⟨g, w₂, hrun, rfl, hw₂⟩ := (hmakes k).ok happly
      rw [hrun] at hbuild
      cases hbuild
      refine ⟨k, w₁, hplan, rfl, hw₂.here.trans hstays.here, ?_⟩
      rw [← hstays.here, ← hstays.tree, happly]
      exact congrArg (Prod.mk _) hw₂.tree.symm

theorem planCreate_eq_ok (h : ((planCreate project folder fs s).run w).run = (.ok k, w')) :
    k.root = Path.ofText folder / project ∧ Project.documents project fs s = .ok (k.drafts.map Draft.shown) := by
  unfold planCreate at h
  obtain ⟨n, w₁, -, h⟩ := Run.bind_eq_ok h
  dsimp only at h
  obtain ⟨w₂, -, h⟩ := Quiet.guarded_eq_ok (.throw _) h
  obtain ⟨w₃, -, h⟩ := Quiet.guarded_eq_ok (Toolchain.quiet_check _) h
  obtain ⟨ws, w₄, -, h⟩ := Run.bind_eq_ok h
  obtain ⟨u, w₅, -, h⟩ := Run.bind_eq_ok h
  obtain ⟨v, w₆, -, h⟩ := Run.bind_eq_ok h
  obtain ⟨drafts, w₇, hdrafts, h⟩ := Run.bind_eq_ok h
  cases h
  have hdocs := Draft.render_eq_ok (ofExcept_eq_ok hdrafts).1
  exact ⟨rfl, hdocs⟩

theorem create_eq_ok (h : ((create project folder fs s).run w).run = (.ok g, w')) :
    g.root = Path.ofText folder / project ∧ Project.documents project fs s = .ok g.documents ∧ w'.here = w.here ∧
      ∃ drafts, g.documents = drafts.map Draft.shown ∧
        Tree.applyAll w.here w.tree (createActions (fs.map Feature.name) g.root drafts) = (.ok (), w'.tree) := by
  rw [create_eq_build] at h
  obtain ⟨k, w₁, hplan, rfl, hhere, happly⟩ :=
    build_eq_ok (quiet_planCreate project folder fs s) (makes_buildCreate fs s) h
  obtain ⟨hroot, hdocs⟩ := planCreate_eq_ok hplan
  exact ⟨hroot, hdocs, hhere, k.drafts, rfl, happly⟩

theorem readFile?_eq_ok {p : Path} {found : Option String} (hlook : w.tree.look w.here p = .ok (some (.file c)))
    (h : ((readFile? p).run w).run = (.ok found, w')) : ∃ text, c.read = .ok text ∧ found = some text := by
  obtain ⟨d, w₁, hfile, h⟩ := Run.bind_eq_ok h
  obtain ⟨n, hn, rfl, rfl⟩ := file?_eq_ok hfile
  obtain rfl := Except.ok.inj (hn.symm.trans hlook)
  obtain ⟨text, w₂, hread, h⟩ := Run.bind_eq_ok h
  cases h
  exact ⟨text, (ofExcept_eq_ok hread).1, rfl⟩

theorem projectName_eq {called : Spelled String} (hlook : w.tree.look w.here (root / Manifest.path) = .ok (some (.file c)))
    (hname : Manifest.name c = .ok (some called)) : ((projectName root).run w).run = (.ok called, w) := by
  have hpath : root / Manifest.path = root.below ["package.json"] := Path.div_eq_below root (by decide +kernel)
  have hnull : root.hasNull = false := by
    rw [Bool.eq_false_iff]
    intro hnull
    have hbelow : (root / Manifest.path).hasNull = true := by rw [hpath, Path.hasNull_below, hnull, Bool.true_or]
    rw [Tree.look, if_pos hbelow] at hlook
    cases hlook
  have hfound : ((Run.ofExcept (w.tree.look w.here (root / Manifest.path))).run w).run =
      (.ok (some (.file c)), w) := by
    rw [hlook]
    rfl
  have hfile : ((Run.file? (root / Manifest.path)).run w).run = (.ok (some c), w) :=
    (run_bind_of_ok hfound).trans rfl
  have hget : ((get : Run World).run w).run = (.ok w, w) := rfl
  rw [projectName]
  refine (run_bind_of_ok hget).trans ?_
  rw [if_neg (by simp [hnull])]
  refine (run_bind_of_ok hfile).trans ?_
  rw [Option.map_some, hname]
  rfl

/-- The documents of a project that its registry is loaded from. -/
structure Displays (here : Location) (root : Path) (t : Tree) (entryPoint readme : String) : Prop where
  entryPoint : t.look here (root / EntryPoint.path) = .ok (some (.file (.text entryPoint)))
  readme : t.look here (root / Readme.path) = .ok (some (.file (.text readme)))

def Declares (here : Location) (root : Path) (t : Tree) (name : String) : Prop :=
  ∃ c, t.look here (root / Manifest.path) = .ok (some (.file c)) ∧ Manifest.name c = .ok (some name)

variable {entryPoint readme : String}

theorem loadRegistry_eq_ok (hshown : Displays w.here root w.tree entryPoint readme)
    (hname : Declares w.here root w.tree project)
    {loaded : Spelled Registry} (h : ((loadRegistry root (.text entryPoint)).run w).run = (.ok loaded, w')) :
    ∃ text lines, (Content.text entryPoint).read = .ok text ∧ (Content.text readme).read = .ok lines ∧
      loaded = .plain (Registry.load text (some lines) project) := by
  obtain ⟨c, hlook, hc⟩ := hname
  obtain ⟨found, w₁, hstays, hreadme, h⟩ := (quiet_readFile? _).bind_eq_ok h
  obtain ⟨lines, hlines, rfl⟩ := readFile?_eq_ok hshown.readme hreadme
  obtain ⟨text, w₂, hread, h⟩ := Run.bind_eq_ok h
  obtain ⟨htext, rfl⟩ := ofExcept_eq_ok hread
  obtain ⟨name, w₃, hproject, h⟩ := Run.bind_eq_ok h
  rw [projectName_eq (by rw [hstays.tree, hstays.here, hlook]) hc] at hproject
  cases hproject
  obtain ⟨u, w₄, -, h⟩ := Run.bind_eq_ok h
  obtain ⟨v, w₅, -, h⟩ := Run.bind_eq_ok h
  cases h
  exact ⟨text, lines, htext, hlines, rfl⟩

theorem load_untitled (text fallback : String) : (Registry.load text none fallback).project = fallback :=
  Registry.project_registerAll _ _

/-- Without a README, the project is called what its manifest says, in both spellings. -/
theorem loadRegistry_untitled {called : Spelled String} {loaded : Spelled Registry}
    (hreadme : w.tree.look w.here (root / Readme.path) = .ok none)
    (hmanifest : w.tree.look w.here (root / Manifest.path) = .ok (some (.file c)))
    (hname : Manifest.name c = .ok (some called)) {d : Content}
    (h : ((loadRegistry root d).run w).run = (.ok loaded, w')) : loaded.map Registry.project = called := by
  obtain ⟨found, w₁, hstays, hread, h⟩ := (quiet_readFile? _).bind_eq_ok h
  obtain ⟨file, w₂, hfile, hread⟩ := Run.bind_eq_ok hread
  obtain ⟨n, hn, rfl, rfl⟩ := file?_eq_ok hfile
  obtain rfl := Except.ok.inj (hn.symm.trans hreadme)
  cases hread
  obtain ⟨text, w₃, htext, h⟩ := Run.bind_eq_ok h
  obtain ⟨-, rfl⟩ := ofExcept_eq_ok htext
  obtain ⟨name, w₄, hproject, h⟩ := Run.bind_eq_ok h
  rw [projectName_eq hmanifest hname] at hproject
  cases hproject
  obtain ⟨u, w₅, -, h⟩ := Run.bind_eq_ok h
  obtain ⟨v, w₆, -, h⟩ := Run.bind_eq_ok h
  cases h
  cases called with
  | plain p => exact congrArg Spelled.plain (load_untitled text p)
  | twice p q => exact congrArg₂ Spelled.twice (load_untitled text p) (load_untitled text q)

theorem registerFeature_eq_ok {added : Registry} (h : ((registerFeature r f).run w).run = (.ok added, w')) :
    f.Maps ∧ added = r.register f.name f.sample := by
  obtain ⟨u, w₁, -, h⟩ := Run.bind_eq_ok h
  obtain ⟨ms, w₂, hms, h⟩ := Run.bind_eq_ok h
  have hmaps : f.Maps := ⟨ms, (ofExcept_eq_ok hms).1⟩
  obtain rfl := Except.ok.inj (hmaps.ofFields_eq.symm.trans (ofExcept_eq_ok hms).1)
  refine ⟨hmaps, ?_⟩
  dsimp only at h
  split at h
  · obtain ⟨v, w₃, -, h⟩ := Run.bind_eq_ok h
    obtain ⟨x, w₄, -, h⟩ := Run.bind_eq_ok h
    cases h
    rfl
  · cases h
    rfl

theorem addedDrafts_eq_ok {loaded : Spelled Registry} {s : Spelled Settings} {sample : String} {drafts : List Draft}
    (h : addedDrafts (loaded.shown.register f.name sample) (loaded.map Registry.project) f s = .ok drafts) :
    addedDocuments (loaded.shown.register f.name sample) f s.shown = .ok (drafts.map Draft.shown) := by
  have hdocs := Draft.render_eq_ok h
  rw [Spelled.shown_both, Spelled.shown_map] at hdocs
  exact hdocs

theorem addedDocuments_parts {ds : List Document} (h : addedDocuments r f s = .ok ds) :
    f.name ≠ "" ∧ ∃ ls, ds = f.output s ++
      [EntryPoint.render r s, ⟨Readme.path, linesText (Readme.opening r.project ++ ls)⟩] := by
  unfold addedDocuments at h
  cases hown : f.documents s with
  | error e => rw [hown] at h; cases h
  | ok own =>
      obtain ⟨-, hname, rfl⟩ := Feature.documents_eq_ok.1 hown
      cases hphrases : r.names.mapM withArticle with
      | error e => rw [hown, Readme.render, hphrases] at h; cases h
      | ok phrases =>
          rw [hown, Readme.render, hphrases] at h
          obtain rfl := Except.ok.inj h
          rw [Readme.lines, List.append_assoc]
          exact ⟨hname, _, rfl⟩

theorem isText_of_opening {p q : String} {ls ls' : List String} (hlength : p.toList.length = q.toList.length)
    (h : (Spelled.twice (linesText (Readme.opening p ++ ls)) (linesText (Readme.opening q ++ ls'))).IsText) :
    (Spelled.twice p q).IsText := by
  obtain ⟨cs, hcs⟩ := Readme.toList_opening p ls
  obtain ⟨cs', hcs'⟩ := Readme.toList_opening q ls'
  rw [List.append_assoc] at hcs hcs'
  exact h.of_infix hlength hcs hcs'

/-- Where the project is called what no text is, the README cannot be encoded. -/
theorem addedDrafts_unencodable {codes : List Nat} (hcodes : ¬(Spelled.ofCodes codes).IsText) {s : Spelled Settings}
    {drafts : List Draft} (h : addedDrafts r (.ofCodes codes) f s = .ok drafts) : ∃ d ∈ drafts, ¬d.content.IsText := by
  have hboth : (Spelled.ofCodes codes).both s =
      .twice ((Spelled.ofCodes codes).shown, s.shown) ((Spelled.ofCodes codes).coded, s.coded) := by cases s <;> rfl
  rw [addedDrafts, hboth, Draft.render] at h
  cases hshown : addedDocuments { r with project := (Spelled.ofCodes codes).shown } f s.shown with
  | error e => rw [hshown] at h; cases h
  | ok ds =>
      cases hcoded : addedDocuments { r with project := (Spelled.ofCodes codes).coded } f s.coded with
      | error e => rw [hshown, hcoded] at h; cases h
      | ok es =>
          rw [hshown, hcoded] at h
          cases h
          obtain ⟨-, ls, rfl⟩ := addedDocuments_parts hshown
          obtain ⟨-, ls', rfl⟩ := addedDocuments_parts hcoded
          have hlength : (Spelled.ofCodes codes).shown.toList.length = (Spelled.ofCodes codes).coded.toList.length := by
            simp [Spelled.ofCodes, Spelled.shown, Spelled.coded, Text.shownCodes]
          rw [List.append_cons, List.append_cons (f.output s.coded)]
          refine ⟨_, Draft.mem_pair_concat ?_, fun htext => ?_⟩
          · simp only [List.length_append, Feature.output, List.length_map, List.length_singleton]
          · dsimp only at htext
            exact hcodes (isText_of_opening hlength htext)

/-- What an addition has found and rendered before it changes the tree. -/
theorem planAdd_eq_ok {s : Spelled Settings} (h : ((planAdd folder name spec s).run w).run = (.ok k, w')) :
    k.root = Path.ofText folder ∧ ∃ c loaded w₁ w₂,
      w.tree.look w.here (Path.ofText folder / EntryPoint.path) = .ok (some (.file c)) ∧ w.Stays w₁ ∧
      ((loadRegistry (Path.ofText folder) c).run w₁).run = (.ok loaded, w₂) ∧
      ∃ f : Feature, f.name = name ∧ f.Maps ∧
        addedDrafts (loaded.shown.register f.name f.sample) (loaded.map Registry.project) f s = .ok k.drafts := by
  unfold planAdd at h
  obtain ⟨found, w₁, hfile, h⟩ := Run.bind_eq_ok h
  obtain ⟨n, hlook, rfl, rfl⟩ := file?_eq_ok hfile
  rcases n with _ | _ | c
  · cases h
  · cases h
  dsimp only [Option.bind_some, Node.content?] at h
  obtain ⟨w₂, hw₂, h⟩ := Quiet.guarded_eq_ok (Toolchain.quiet_check _) h
  obtain ⟨u, w₃, hw₃, -, h⟩ := (Quiet.tell _).bind_eq_ok h
  obtain ⟨ws, w₄, hw₄, -, h⟩ := (quiet_reviewAll _).bind_eq_ok h
  obtain ⟨loaded, w₅, hload, h⟩ := Run.bind_eq_ok h
  obtain ⟨v, w₆, -, h⟩ := Run.bind_eq_ok h
  obtain ⟨added, w₇, hadded, h⟩ := Run.bind_eq_ok h
  obtain ⟨hmaps, rfl⟩ := registerFeature_eq_ok hadded
  obtain ⟨x, w₈, -, h⟩ := Run.bind_eq_ok h
  obtain ⟨drafts, w₉, hdrafts, h⟩ := Run.bind_eq_ok h
  cases h
  exact ⟨rfl, c, loaded, w₄, w₅, hlook, (hw₂.trans hw₃).trans hw₄, hload, _, rfl, hmaps, (ofExcept_eq_ok hdrafts).1⟩

theorem planAdd_documents (hshown : Displays w.here (Path.ofText folder) w.tree entryPoint readme)
    (hname : Declares w.here (Path.ofText folder) w.tree project)
    (h : ((planAdd folder name spec s).run w).run = (.ok k, w')) :
    k.root = Path.ofText folder ∧ ∃ text lines, (Content.text entryPoint).read = .ok text ∧
      (Content.text readme).read = .ok lines ∧ ∃ f : Feature, f.name = name ∧ f.Maps ∧
      addedDocuments ((Registry.load text (some lines) project).register name f.sample) f s =
        .ok (k.drafts.map Draft.shown) := by
  obtain ⟨hroot, c, loaded, w₁, w₂, hlook, hstays, hload, f, rfl, hmaps, hdrafts⟩ := planAdd_eq_ok h
  obtain rfl : c = .text entryPoint :=
    Node.file.inj (Option.some.inj (Except.ok.inj (hlook.symm.trans hshown.entryPoint)))
  have hdocs := addedDrafts_eq_ok hdrafts
  rw [← hstays.here, ← hstays.tree] at hshown hname
  obtain ⟨text, lines, htext, hlines, rfl⟩ := loadRegistry_eq_ok hshown hname hload
  rw [Spelled.shown_plain] at hdocs
  exact ⟨hroot, text, lines, htext, hlines, f, rfl, hmaps, hdocs⟩

/-- What an addition has written, given what was there. -/
theorem add_eq_ok (hshown : Displays w.here (Path.ofText folder) w.tree entryPoint readme)
    (hname : Declares w.here (Path.ofText folder) w.tree project)
    (h : ((add folder name spec s).run w).run = (.ok g, w')) :
    g.root = Path.ofText folder ∧ w'.here = w.here ∧
      (∃ drafts, g.documents = drafts.map Draft.shown ∧
        Tree.applyAll w.here w.tree (addActions name g.root drafts) = (.ok (), w'.tree)) ∧
      ∃ text lines, (Content.text entryPoint).read = .ok text ∧ (Content.text readme).read = .ok lines ∧
        ∃ f : Feature, f.name = name ∧ f.Maps ∧
        addedDocuments ((Registry.load text (some lines) project).register name f.sample) f s = .ok g.documents := by
  rw [add_eq_build] at h
  obtain ⟨k, w₁, hplan, rfl, hhere, happly⟩ := build_eq_ok (quiet_planAdd folder name spec s) (makes_buildAdd name) h
  obtain ⟨hroot, hdocs⟩ := planAdd_documents hshown hname hplan
  exact ⟨hroot, hhere, ⟨k.drafts, rfl, happly⟩, hdocs⟩

end Generation

theorem Generated.Stands.file {g : Generated} {here l : Location} {t : Tree} (h : g.Stands here t)
    (hroot : Tree.Rooted here g.root l t) {before after : List Document} {d : Document}
    (hdocs : g.documents = before ++ d :: after) (hd : Path.Inside d.path)
    (hnull : ∀ x ∈ (Path.ofText d.path).parts, '\x00' ∉ x.toList)
    (hafter : ∀ e ∈ after, Path.Inside e.path ∧ (Path.ofText e.path).parts ≠ (Path.ofText d.path).parts) :
    t.look here (g.root / d.path) = .ok (some (.file (.text d.content))) := by
  obtain ⟨m, hm, hnode⟩ := h before d after hdocs
  rw [Generation.div_eq g.root hd.relative] at hm ⊢
  obtain rfl := hroot.locate_ok hd.dots hm
  rw [Tree.look_of_locate ((Generation.noNull_below _ hroot.noNull).2 hnull) hm, hnode]
  intro e he hsame
  obtain ⟨hinside, hne⟩ := hafter e he
  rw [Generation.div_eq g.root hinside.relative] at hsame
  exact hne (List.append_cancel_left (hroot.locate_ok hinside.dots hsame)).symm

namespace Generation

def readPlaces : List (List String) := [["Server", "index.ts"], ["README.md"], ["package.json"]]

theorem own_apart {f : Feature} (hf : Path.IsEntry f.name) {s : Settings} {d : Document} (hd : d ∈ f.own s) :
    Path.Inside d.path ∧ (Path.ofText d.path).parts ∉ readPlaces := by
  refine ⟨inside_own hf d hd, ?_⟩
  obtain ⟨k, hparts⟩ := own_place hf hd
  rw [hparts]
  cases k <;> simp [FeatureDocument.place, readPlaces]

/-- What an addition reads stands as it was last written, whatever features have been written after it. -/
theorem look_of_stands {g : Generated} {here l : Location} {t : Tree} {s : Settings} (h : g.Stands here t)
    (hroot : Tree.Rooted here g.root l t) {before rest after : List Document} {d : Document}
    (hdocs : g.documents = before ++ d :: (rest ++ after)) (hplace : (Path.ofText d.path).parts ∈ readPlaces)
    (hinside : ∀ e ∈ d :: rest, Path.Inside e.path)
    (hrest : ∀ e ∈ rest, (Path.ofText e.path).parts ≠ (Path.ofText d.path).parts)
    (hafter : ∀ e ∈ after, ∃ f : Feature, Path.IsEntry f.name ∧ e ∈ f.own s) :
    t.look here (g.root / d.path) = .ok (some (.file (.text d.content))) := by
  have hnull : ∀ p ∈ readPlaces, ∀ x ∈ p, '\x00' ∉ x.toList := by decide +kernel
  refine h.file hroot hdocs (hinside d List.mem_cons_self) (hnull _ hplace) fun e he => ?_
  rcases List.mem_append.1 he with he | he
  · exact ⟨hinside e (List.mem_cons_of_mem d he), hrest e he⟩
  · obtain ⟨f, hf, hown⟩ := hafter e he
    obtain ⟨hin, hapart⟩ := own_apart hf hown
    exact ⟨hin, fun hsame => hapart (hsame ▸ hplace)⟩

theorem displays_of_stands {g : Generated} {here l : Location} {t : Tree} {r : Registry} {s : Settings}
    (h : g.Stands here t) (hroot : Tree.Rooted here g.root l t) {before after : List Document}
    (hdocs : g.documents = before ++ [EntryPoint.render r s, Readme.document r s] ++ after)
    (hafter : ∀ d ∈ after, ∃ f : Feature, Path.IsEntry f.name ∧ d ∈ f.own s) :
    Displays here g.root t (EntryPoint.render r s).content (Readme.document r s).content := by
  have hentry : (Path.ofText (EntryPoint.render r s).path).parts = ["Server", "index.ts"] := by
    change (Path.ofText EntryPoint.path).parts = _
    decide +kernel
  have hreadme : (Path.ofText (Readme.document r s).path).parts = ["README.md"] := by
    change (Path.ofText Readme.path).parts = _
    decide +kernel
  have hinside : ∀ d ∈ [EntryPoint.render r s, Readme.document r s], Path.Inside d.path := fun d hd =>
    inside_common "" r s d (List.mem_append_right _ hd)
  have hfirst : g.documents = before ++ EntryPoint.render r s :: ([Readme.document r s] ++ after) := by simp [hdocs]
  have hsecond : g.documents = (before ++ [EntryPoint.render r s]) ++ Readme.document r s :: ([] ++ after) := by
    simp [hdocs]
  have hapart : ∀ d ∈ [Readme.document r s], (Path.ofText d.path).parts ≠
      (Path.ofText (EntryPoint.render r s).path).parts := fun d hd => by
    rw [List.mem_singleton.1 hd, hentry, hreadme]
    decide
  have hentryLook := look_of_stands h hroot hfirst (by rw [hentry]; decide) hinside hapart hafter
  have hreadmeLook := look_of_stands h hroot hsecond (by rw [hreadme]; decide)
    (fun d hd => hinside d (List.mem_cons_of_mem _ hd)) (fun d hd => absurd hd List.not_mem_nil) hafter
  exact ⟨hentryLook, hreadmeLook⟩

end Generation

end ApiScaffold
