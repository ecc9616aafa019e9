import ApiScaffold.Proofs.Generation.Addition
import ApiScaffold.Proofs.Tree.Frame

namespace ApiScaffold

namespace Generation

open Run

variable {folder name : String} {spec : Option String} {s : Settings} {k : Plan} {w w' : World} {t : Tree}
  {ns ns' q : List String}

inductive Written (ns : List String) : List String → Prop
  | entryPoint : Written ns ["Server", "index.ts"]
  | readme : Written ns ["README.md"]
  | own {n x : String} {r : List String} : n ∈ ns → Written ns ("Features" :: n :: x :: r)
  | tests {n x : String} {r : List String} : n ∈ ns → Written ns ("__tests__" :: "Features" :: n :: x :: r)

theorem written_iff : Written ns q ↔ q = ["Server", "index.ts"] ∨ q = ["README.md"] ∨
    ∃ n ∈ ns, ∃ x r, q = "Features" :: n :: x :: r ∨ q = "__tests__" :: "Features" :: n :: x :: r := by
  constructor
  · intro h
    cases h with
    | entryPoint => exact .inl rfl
    | readme => exact .inr (.inl rfl)
    | own hn => exact .inr (.inr ⟨_, hn, _, _, .inl rfl⟩)
    | tests hn => exact .inr (.inr ⟨_, hn, _, _, .inr rfl⟩)
  · rintro (rfl | rfl | ⟨n, hn, x, r, rfl | rfl⟩)
    · exact .entryPoint
    · exact .readme
    · exact .own hn
    · exact .tests hn

theorem Written.mono (h : Written ns q) (hns : ∀ n ∈ ns, n ∈ ns') : Written ns' q := by
  cases h with
  | entryPoint => exact .entryPoint
  | readme => exact .readme
  | own hn => exact .own (hns _ hn)
  | tests hn => exact .tests (hns _ hn)

/-- A place below the root that additions of the named features write to. -/
def IsWritten (root : Location) (ns : List String) (m : Location) : Prop := ∃ q, m = root ++ q ∧ Written ns q

theorem written_place (d : FeatureDocument) (n : String) : Written [n] (d.place n) := by
  have hn : n ∈ [n] := List.mem_singleton_self n
  cases d with
  | useCaseTest | controllerTest => exact .tests hn
  | _ => exact .own hn

theorem written_addedDocuments {r : Registry} {f : Feature} {ds : List Document} (hslash : '/' ∉ f.name.toList)
    (hdot : f.name ≠ ".") (hup : f.name ≠ "..") (h : addedDocuments r f s = .ok ds) :
    ∀ d ∈ ds, Path.Inside d.path ∧ Written [f.name] (Path.ofText d.path).parts := by
  obtain ⟨hempty, ls, rfl⟩ := addedDocuments_parts h
  have hname : Path.IsEntry f.name := ⟨⟨hempty, hdot, hslash⟩, hup⟩
  intro d hd
  rcases List.mem_append.1 hd with hd | hd
  · obtain ⟨k, -, rfl⟩ := List.mem_map.1 hd
    have hpath : Path.ofText (k.path f.name) = ⟨false, k.place f.name⟩ := k.ofText_path hname
    refine ⟨Path.inside_of_ofText hpath (by cases k <;> exact List.cons_ne_nil _ _) fun x hx =>
      (k.place_around f.name x hx).isEntry hname, ?_⟩
    exact hpath ▸ written_place k f.name
  · have hentry : Path.Inside EntryPoint.path ∧ (Path.ofText EntryPoint.path).parts = ["Server", "index.ts"] := by
      decide +kernel
    have hreadme : Path.Inside Readme.path ∧ (Path.ofText Readme.path).parts = ["README.md"] := by decide +kernel
    rcases List.mem_pair.1 hd with rfl | rfl
    · exact ⟨hentry.1, hentry.2 ▸ .entryPoint⟩
    · exact ⟨hreadme.1, hreadme.2 ▸ .readme⟩

theorem foldl_next {l : Location} (h : ".." ∉ q) : q.foldl Tree.next l = l ++ q := by
  induction q generalizing l with
  | nil => exact (List.append_nil l).symm
  | cons x q ih =>
      obtain ⟨hx, hq⟩ := not_or.1 (mt List.mem_cons.2 h)
      rw [List.foldl_cons, ih hq, Tree.next_eq (Ne.symm hx), List.append_assoc]
      rfl

theorem resolved_div (here : Location) (root : Path) {p : String} (h : Path.Inside p) :
    resolved here (root / p) = resolved here root ++ (Path.ofText p).parts := by
  rw [div_eq root h.relative, resolved, Path.below, List.foldl_append, foldl_next h.dots]
  rfl

theorem isWritten_of_planAdd (hslash : '/' ∉ name.toList) (hdot : name ≠ ".") (hup : name ≠ "..")
    (h : ((planAdd folder name spec s).run w).run = (.ok k, w')) {p : Path}
    {text : Spelled String} (hmem : .file p text ∈ addActions name k.root k.drafts) :
    IsWritten (resolved w.here (Path.ofText folder)) [name] (resolved w.here p) := by
  obtain ⟨hroot, _, _, _, _, -, -, -, f, rfl, -, hdrafts⟩ := planAdd_eq_ok h
  have hdocs := addedDrafts_eq_ok hdrafts
  rcases List.mem_append.1 hmem with hmem | hmem
  · obtain ⟨d, -, hd⟩ := List.mem_map.1 hmem
    cases hd
  · obtain ⟨d, hd, hfile⟩ := List.mem_flatMap.1 hmem
    obtain ⟨rfl, -⟩ : p = k.root / d.path ∧ text = d.content := by simpa using hfile
    obtain ⟨hinside, hwritten⟩ := written_addedDocuments hslash hdot hup hdocs d.shown (List.mem_map_of_mem hd)
    exact ⟨_, hroot ▸ resolved_div _ _ hinside, hwritten⟩

structure Addition where
  name : String
  spec : Option String
  settings : Settings

namespace Addition

variable {a : Addition} {as : List Addition}

def run (folder : String) (a : Addition) : Run Generated := add folder a.name a.spec a.settings

def ending (folder : String) (w : World) (a : Addition) : World := ((a.run folder).run w).run.2

def added (folder : String) (w : World) (a : Addition) : List String :=
  if ((a.run folder).run w).run.1.isOk then [a.name] else []

/-- If the call comes to writing its documents, it writes all of them. -/
def Writes (folder : String) (w : World) (a : Addition) : Prop :=
  ∀ k ∈ ((planAdd folder a.name a.spec a.settings).run w).run.1.toOption,
    (Tree.applyAll w.here w.tree (folderActions k.root (Feature.directories a.name))).1 = .ok () →
    (Tree.applyAll w.here w.tree (addActions a.name k.root k.drafts)).1 = .ok ()

instance (folder : String) (w : World) (a : Addition) : Decidable (Writes folder w a) :=
  inferInstanceAs (Decidable (∀ k ∈ ((planAdd folder a.name a.spec a.settings).run w).run.1.toOption,
    (Tree.applyAll w.here w.tree (folderActions k.root (Feature.directories a.name))).1 = .ok () →
    (Tree.applyAll w.here w.tree (addActions a.name k.root k.drafts)).1 = .ok ()))

/-- A call that does not come to writing its documents alters no file. -/
theorem altersOnly_of_stopped {P : Location → Prop} {e : Failure} {root : Path} {ds : List Draft}
    (h : (Tree.applyAll w.here w.tree (folderActions root (Feature.directories name))).1 = .ok () →
      (Tree.applyAll w.here w.tree (addActions name root ds)).1 = .ok ())
    (happly : Tree.applyAll w.here w.tree (addActions name root ds) = (.error e, t)) : Tree.AltersOnly P w.tree t := by
  have hfolders : Tree.AltersOnly P w.tree
      (Tree.applyAll w.here w.tree (folderActions root (Feature.directories name))).2 := by
    refine .of_actions (fun p text hmem => ?_) w.tree
    obtain ⟨d, -, hd⟩ := List.mem_map.1 hmem
    cases hd
  rcases hmade : Tree.applyAll w.here w.tree (folderActions root (Feature.directories name)) with ⟨r, t₁⟩
  rw [hmade] at h hfolders
  cases r with
  | ok u =>
      have hwritten := h rfl
      rw [happly] at hwritten
      cases hwritten
  | error e₁ =>
      rw [addActions, Tree.applyAll_append, hmade] at happly
      cases happly
      exact hfolders

theorem planAdd_nameless (folder : String) (spec : Option String) (s : Settings) (w : World) :
    ∃ e w', ((planAdd folder "" spec s).run w).run = (.error e, w') := by
  rcases h : ((planAdd folder "" spec s).run w).run with ⟨r, w'⟩
  cases r with
  | error e => exact ⟨e, w', rfl⟩
  | ok k =>
      obtain ⟨-, _, _, _, _, -, -, -, f, hname, -, hdrafts⟩ := planAdd_eq_ok h
      exact absurd hname (addedDocuments_parts (addedDrafts_eq_ok hdrafts)).1

theorem writes_of_ok {g : Generated} (h : ((a.run folder).run w).run = (.ok g, w')) : a.Writes folder w := by
  rw [run, add_eq_build] at h
  obtain ⟨k, w₁, hplan, rfl, -, happly⟩ := build_eq_ok (quiet_planAdd _ _ _ _) (makes_buildAdd a.name) h
  intro k' hk' _
  rw [hplan] at hk'
  obtain rfl := Option.some.inj hk'
  rw [happly]

/-- One call alters files only at the places of the feature that it adds, and none if it adds none. -/
theorem altersOnly_ending (hslash : '/' ∉ a.name.toList) (hdot : a.name ≠ ".") (hup : a.name ≠ "..")
    (h : a.Writes folder w) : (a.ending folder w).here = w.here ∧
      Tree.AltersOnly (IsWritten (resolved w.here (Path.ofText folder)) (a.added folder w)) w.tree
        (a.ending folder w).tree := by
  have hplan := quiet_planAdd folder a.name a.spec a.settings w
  have hmakes := makes_buildAdd a.name
  rw [ending, added, run, add_eq_build]
  rcases hk : ((planAdd folder a.name a.spec a.settings).run w).run with ⟨r, w₁⟩
  rw [hk] at hplan
  cases r with
  | error e =>
      rw [run_bind_of_error hk]
      exact ⟨hplan.here, hplan.tree ▸ .refl _⟩
  | ok k =>
      rw [run_bind_of_ok hk]
      have hpossible := h k (by rw [hk]; rfl)
      rcases happly : Tree.applyAll w.here w.tree (addActions a.name k.root k.drafts) with ⟨r, t⟩
      have happly₁ := happly
      rw [← hplan.here, ← hplan.tree] at happly₁
      cases r with
      | ok u =>
          obtain ⟨g, w', hrun, -, hw'⟩ := (hmakes k).ok happly₁
          have hwritten := Tree.AltersOnly.of_actions (P := IsWritten (resolved w.here (Path.ofText folder)) [a.name])
            (fun p text hmem => isWritten_of_planAdd hslash hdot hup hk hmem) w.tree
          rw [happly] at hwritten
          rw [hrun]
          exact ⟨hw'.here.trans hplan.here, hw'.tree ▸ hwritten⟩
      | error e =>
          obtain ⟨e', w', hrun, hw'⟩ := (hmakes k).error happly₁
          rw [hrun]
          exact ⟨hw'.here.trans hplan.here, hw'.tree ▸ altersOnly_of_stopped hpossible happly⟩

def endings (folder : String) (w : World) (as : List Addition) : World := as.foldl (ending folder) w

def addedAll (folder : String) : World → List Addition → List String
  | _, [] => []
  | w, a :: as => a.added folder w ++ addedAll folder (a.ending folder w) as

def AllWrite (folder : String) : World → List Addition → Prop
  | _, [] => True
  | w, a :: as => a.Writes folder w ∧ AllWrite folder (a.ending folder w) as

instance decidableAllWrite (folder : String) : (w : World) → (as : List Addition) → Decidable (AllWrite folder w as)
  | _, [] => isTrue trivial
  | w, a :: as =>
    haveI := decidableAllWrite folder (a.ending folder w) as
    inferInstanceAs (Decidable (a.Writes folder w ∧ AllWrite folder (a.ending folder w) as))

theorem altersOnly_endings (hnames : ∀ a ∈ as, '/' ∉ a.name.toList ∧ a.name ≠ "." ∧ a.name ≠ "..")
    (h : AllWrite folder w as) :
    Tree.AltersOnly (IsWritten (resolved w.here (Path.ofText folder)) (addedAll folder w as)) w.tree
      (endings folder w as).tree := by
  induction as generalizing w with
  | nil => exact .refl _
  | cons a as ih =>
      obtain ⟨⟨hslash, hdot, hup⟩, hrest⟩ := List.forall_mem_cons.1 hnames
      obtain ⟨hhere, hfirst⟩ := altersOnly_ending hslash hdot hup h.1
      have hlater := ih hrest h.2
      rw [hhere] at hlater
      refine (hfirst.mono ?_).trans (hlater.mono ?_)
      · rintro m ⟨q, hm, hq⟩
        exact ⟨q, hm, hq.mono fun n hn => List.mem_append_left _ hn⟩
      · rintro m ⟨q, hm, hq⟩
        exact ⟨q, hm, hq.mono fun n hn => List.mem_append_right _ hn⟩

/-- The parts of a path to what a project has besides the named features: its package, environment and core, and the
sources and tests of other features. -/
inductive Besides (ns : List String) : List String → Prop
  | package : Besides ns ["package.json"]
  | environment : Besides ns [".env"]
  | core {q : List String} : Besides ns ("Core" :: q)
  | own {n : String} {q : List String} : n ∉ ns → Besides ns ("Features" :: n :: q)
  | tests {n : String} {q : List String} : n ∉ ns → Besides ns ("__tests__" :: "Features" :: n :: q)

theorem Besides.not_written (h : Besides ns q) : ¬Written ns q := by
  rw [written_iff]
  cases h with
  | package | environment | core => simp
  | own hn | tests hn =>
      simp only [List.cons.injEq, String.reduceEq, false_and, true_and, false_or, or_false]
      rintro ⟨n', hn', x, r, rfl, -⟩
      exact hn hn'

/-- However calls that add features end, short of one that fails while it writes, no file is gone after them. A file is
altered or new only as the entry point, as the README, or below the folders of a feature that one of them has added; so
what the project has besides is left alone. -/
theorem endings_frame (hnames : ∀ a ∈ as, '/' ∉ a.name.toList ∧ a.name ≠ "." ∧ a.name ≠ "..")
    (h : AllWrite folder w as) :
    let root := resolved w.here (Path.ofText folder)
    let t := w.tree
    let t' := (endings folder w as).tree
    let ns := addedAll folder w as
    (∀ m c, t.node? m = some (.file c) → ∃ d, t'.node? m = some (.file d)) ∧
    (∀ m, (∀ q, m = root ++ q → ¬Written ns q) → ∀ c, t'.node? m = some (.file c) ↔ t.node? m = some (.file c)) ∧
    ∀ q, Besides ns q → ∀ c, t'.node? (root ++ q) = some (.file c) ↔ t.node? (root ++ q) = some (.file c) := by
  intro root t t' ns
  have halters := altersOnly_endings hnames h
  refine ⟨halters.files, fun m hm => halters.others m ?_, fun q hq => halters.others _ ?_⟩
  · rintro ⟨q, hq, hwritten⟩
    exact hm q hq hwritten
  · rintro ⟨q', he, hwritten⟩
    obtain rfl := List.append_cancel_left he
    exact hq.not_written hwritten

/-- A second feature is added to a shop, and then one without a name is not. -/
theorem endings_frame_shop :
    let s : Settings := { Settings.standard with checkEnvironment := false, installDependencies := false }
    let w : World := .fresh [(["home"], .directory)] ["home"] .bare
    let as : List Addition := [⟨"order", some "total:number", s⟩, ⟨"", none, s⟩]
    ∃ g w₁, ((create "Corner Shop" "." [⟨"user", [⟨"name", "string", "minlength=3"⟩]⟩] s).run w).run = (.ok g, w₁) ∧
      AllWrite g.root.text w₁ as ∧ addedAll g.root.text w₁ as = ["order"] ∧
      ∀ q, (q = ["package.json"] ∨ q = ["Features", "user", "container.ts"]) → ∀ c,
        (endings g.root.text w₁ as).tree.node? (resolved w₁.here (Path.ofText g.root.text) ++ q) = some (.file c) ↔
          w₁.tree.node? (resolved w₁.here (Path.ofText g.root.text) ++ q) = some (.file c) := by
  intro s w as
  obtain ⟨g, w₁, g', w₂, hcreate, hadd⟩ := exists_shop
  obtain ⟨e, w₃, hnone⟩ := planAdd_nameless g.root.text none s w₂
  have hfirst : ((Addition.run g.root.text ⟨"order", some "total:number", s⟩).run w₁).run = (.ok g', w₂) := hadd
  have hending : ending g.root.text w₁ ⟨"order", some "total:number", s⟩ = w₂ := by rw [ending, hfirst]
  have hsecond : ((Addition.run g.root.text ⟨"", none, s⟩).run w₂).run = (.error e, w₃) := by
    rw [run, add_eq_build, run_bind_of_error hnone]
  have hwrite : AllWrite g.root.text w₁ as := by
    refine ⟨writes_of_ok hfirst, ?_, trivial⟩
    rw [hending]
    intro k hk
    rw [hnone] at hk
    cases hk
  have hadded : addedAll g.root.text w₁ as = ["order"] := by
    rw [addedAll, addedAll, addedAll, hending, added, added, hfirst, hsecond]
    rfl
  obtain ⟨-, -, hbesides⟩ := endings_frame (by decide) hwrite
  rw [hadded] at hbesides
  refine ⟨g, w₁, hcreate, hwrite, hadded, ?_⟩
  rintro q (rfl | rfl)
  · exact hbesides _ .package
  · exact hbesides _ (.own (by decide))

end Addition

end Generation

end ApiScaffold
