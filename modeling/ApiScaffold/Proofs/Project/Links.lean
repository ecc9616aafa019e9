import ApiScaffold.Proofs.Feature.Imports
import ApiScaffold.Proofs.Feature.Sources
import ApiScaffold.Proofs.Generation.Addition
import Mathlib.Data.List.Nodup

namespace ApiScaffold

open TypeScript

def Document.IsTypeScript (d : Document) : Prop := ".ts".toList <:+ d.path.toList

instance (d : Document) : Decidable d.IsTypeScript := inferInstanceAs (Decidable (".ts".toList <:+ d.path.toList))

namespace Project

/-- The link leads to a document, and all documents in that place export what is imported. -/
def Resolves (ds : List Document) (importer : String) (l : Link) : Prop :=
  ∃ t, l.target? importer = some t ∧ (∃ e ∈ ds, e.path = t) ∧
    ∀ e ∈ ds, e.path = t → ∀ n ∈ l.names, n ∈ exports e.content

def jest : Placed := ⟨[], "jest.config", SharedText.jest⟩

def entryPoint (r : Registry) (s : Settings) : Placed := ⟨["Server"], "index", EntryPoint.module (.ofRegistry r s)⟩

/-- The modules of a project, those of its features last. -/
def modules (r : Registry) (fs : List Feature) (s : Settings) : List Placed :=
  jest :: core ++ [entryPoint r s] ++ fs.flatMap fun f => FeatureDocument.all.map fun d => d.placed (f.sheet s)

variable {name : String} {r : Registry} {f : Feature} {fs : List Feature} {s : Settings} {d : Document}
  {ds : List Document} {p q : Placed}

theorem own_eq (f : Feature) (s : Settings) :
    f.own s = FeatureDocument.all.map fun d => (d.placed (f.sheet s)).document :=
  List.map_congr_left fun d _ => d.document_eq (f.sheet s)

theorem isTypeScript_document (p : Placed) : p.document.IsTypeScript := by
  change ".ts".toList <:+ p.path.toList
  rw [p.path_eq, String.toList_append]
  exact List.suffix_append _ _

theorem document_mem_common (name : String) (hp : p ∈ jest :: core ++ [entryPoint r s]) :
    p.document ∈ common name r s := by
  have hshared (k : SharedDocument) : k.document (.ofProject name s) ∈ common name r s :=
    List.mem_append_left _ (List.mem_map_of_mem (by cases k <;> decide))
  rcases List.mem_append.1 hp with hp | hp
  · simp only [core, List.mem_cons, List.not_mem_nil, or_false] at hp
    rcases hp with rfl | rfl | rfl | rfl
    · exact hshared .jest
    · exact hshared .result
    · exact hshared .customError
    · exact hshared .database
  · rw [List.mem_singleton.1 hp]
    exact List.mem_append_right _ List.mem_cons_self

theorem module_of_common (hd : d ∈ common name r s) (ht : d.IsTypeScript) :
    ∃ p ∈ jest :: core ++ [entryPoint r s], p.document = d := by
  have hpackage : ¬".ts".toList <:+ SharedDocument.package.path.toList := by decide
  have hoptions : ¬".ts".toList <:+ SharedDocument.compilerOptions.path.toList := by decide
  have henvironment : ¬".ts".toList <:+ SharedDocument.environment.path.toList := by decide
  have hignored : ¬".ts".toList <:+ SharedDocument.ignored.path.toList := by decide
  have hreadme : ¬".ts".toList <:+ Readme.path.toList := by decide
  rcases List.mem_append.1 hd with hd | hd
  · obtain ⟨k, -, rfl⟩ := List.mem_map.1 hd
    cases k with
    | package => exact absurd ht hpackage
    | compilerOptions => exact absurd ht hoptions
    | environment => exact absurd ht henvironment
    | ignored => exact absurd ht hignored
    | jest => exact ⟨jest, by simp, rfl⟩
    | result => exact ⟨result, by simp [core], rfl⟩
    | customError => exact ⟨customError, by simp [core], rfl⟩
    | database => exact ⟨database, by simp [core], rfl⟩
  · rcases List.mem_pair.1 hd with rfl | rfl
    · exact ⟨entryPoint r s, by simp, rfl⟩
    · exact absurd ht hreadme

theorem mem_documents_iff : (d ∈ common name r s ++ fs.flatMap fun f => f.own s) ∧ d.IsTypeScript ↔
    ∃ p ∈ modules r fs s, p.document = d := by
  constructor
  · rintro ⟨hd, ht⟩
    rcases List.mem_append.1 hd with hd | hd
    · obtain ⟨p, hp, rfl⟩ := module_of_common hd ht
      exact ⟨p, List.mem_append_left _ hp, rfl⟩
    · obtain ⟨f, hf, hd⟩ := List.mem_flatMap.1 hd
      rw [own_eq] at hd
      obtain ⟨k, hk, rfl⟩ := List.mem_map.1 hd
      exact ⟨_, List.mem_append_right _ (List.mem_flatMap.2 ⟨f, hf, List.mem_map_of_mem hk⟩), rfl⟩
  · rintro ⟨p, hp, rfl⟩
    refine ⟨?_, isTypeScript_document p⟩
    rcases List.mem_append.1 hp with hp | hp
    · exact List.mem_append_left _ (document_mem_common name hp)
    · obtain ⟨f, hf, hp⟩ := List.mem_flatMap.1 hp
      obtain ⟨k, hk, rfl⟩ := List.mem_map.1 hp
      refine List.mem_append_right _ (List.mem_flatMap.2 ⟨f, hf, ?_⟩)
      rw [own_eq]
      exact List.mem_map_of_mem hk

theorem exists_of_mem_names {n : String} (h : n ∈ (Registry.ofFeatures name fs).names) : ∃ f ∈ fs, f.name = n := by
  induction fs using List.reverseRecOn with
  | nil => cases h
  | append_singleton fs f ih =>
      have hlast : ∃ g ∈ fs ++ [f], g.name = f.name := ⟨f, by simp, rfl⟩
      rw [Registry.ofFeatures_concat, Registry.names_register] at h
      split at h
      · obtain ⟨g, hg, hname⟩ := ih h
        exact ⟨g, List.mem_append_left _ hg, hname⟩
      · rcases List.mem_append.1 h with h | h
        · obtain ⟨g, hg, hname⟩ := ih h
          exact ⟨g, List.mem_append_left _ hg, hname⟩
        · rwa [List.mem_singleton.1 h]

theorem documents_of_identifiers (name : String) (s : Settings) (hfs : ∀ f ∈ fs, Feature.IsIdentifier f.name)
    (hmaps : ∀ f ∈ fs, f.Maps) :
    documents name fs s = .ok (common name (.ofFeatures name fs) s ++ fs.flatMap fun f => f.own s) := by
  refine documents_named hmaps (fun f hf => (hfs f hf).isName) fun n hn => ?_
  obtain ⟨f, hf, rfl⟩ := exists_of_mem_names hn
  exact (hfs f hf).isName

theorem isProper_modules (hfs : ∀ f ∈ fs, Feature.IsIdentifier f.name) : ∀ p ∈ modules r fs s, p.IsProper := by
  intro p hp
  rcases List.mem_append.1 hp with hp | hp
  · have hcommon : ∀ q ∈ (jest :: core ++ [entryPoint r s]).map Placed.parts, ∀ x ∈ q, Path.IsEntry x := by
      change ∀ q ∈ [["jest.config"], ["Core", "result", "result"], ["Core", "error", "custom-error"],
        ["Core", "config", "database"], ["Server", "index"]], ∀ x ∈ q, Path.IsEntry x
      simp only [List.forall_mem_cons]
      decide
    exact hcommon p.parts (List.mem_map_of_mem hp)
  · obtain ⟨f, hf, hp⟩ := List.mem_flatMap.1 hp
    obtain ⟨k, -, rfl⟩ := List.mem_map.1 hp
    exact FeatureDocument.isProper_placed (hfs f hf).isEntry

theorem head?_common (hp : p ∈ jest :: core ++ [entryPoint r s]) :
    p.folder.head? ∉ [some "Features", some "__tests__"] := by
  have hheads : ∀ h ∈ (jest :: core ++ [entryPoint r s]).map fun p => p.folder.head?,
      h ∉ [some "Features", some "__tests__"] := by
    change ∀ h ∈ [none, some "Core", some "Core", some "Core", some "Server"], h ∉ [some "Features", some "__tests__"]
    decide
  exact hheads _ (List.mem_map_of_mem hp)

theorem common_nodup : ((jest :: core ++ [entryPoint r s]).map Placed.parts).Nodup := by
  change [["jest.config"], ["Core", "result", "result"], ["Core", "error", "custom-error"],
    ["Core", "config", "database"], ["Server", "index"]].Nodup
  decide

/-- Modules in one place export the same names: there is more than one when features share a name. -/
theorem exported_eq_of_place (hp : p ∈ modules r fs s) (hq : q ∈ modules r fs s) (hfolder : p.folder = q.folder)
    (hstem : p.stem = q.stem) : p.module.exported = q.module.exported := by
  rcases List.mem_append.1 hp with hp | hp <;> rcases List.mem_append.1 hq with hq | hq
  · have hparts : p.parts = q.parts := by rw [Placed.parts, Placed.parts, hfolder, hstem]
    rw [List.inj_on_of_nodup_map common_nodup hp hq hparts]
  · obtain ⟨g, -, hq⟩ := List.mem_flatMap.1 hq
    obtain ⟨k, -, rfl⟩ := List.mem_map.1 hq
    exact absurd (hfolder ▸ k.head?_folder g.name) (head?_common hp)
  · obtain ⟨f, -, hp⟩ := List.mem_flatMap.1 hp
    obtain ⟨k, -, rfl⟩ := List.mem_map.1 hp
    exact absurd (hfolder ▸ k.head?_folder f.name) (head?_common hq)
  · obtain ⟨f, -, hp⟩ := List.mem_flatMap.1 hp
    obtain ⟨k, -, rfl⟩ := List.mem_map.1 hp
    obtain ⟨g, -, hq⟩ := List.mem_flatMap.1 hq
    obtain ⟨l, -, rfl⟩ := List.mem_map.1 hq
    obtain ⟨rfl, hname⟩ := FeatureDocument.placed_inj hfolder hstem
    exact FeatureDocument.exported_sheet hname k s

theorem imports_entryPoint (r : Registry) (s : Settings) : (entryPoint r s).module.imports =
    Module.imports EntryPoint.frame ++ r.names.map (fun n => .effects (Identifier.containerModule n)) ++
      r.names.map fun n => .named [Identifier.controllerClass n] (Identifier.controllerModule n) := by
  have happ (m l : Module) : Module.imports (m ++ l) = Module.imports m ++ Module.imports l := List.filterMap_append
  have hmap (fs : List (String × String)) (g : String → Import) :
      Module.imports (fs.map fun f => .importing (g f.1)) = (Keyed.keys fs).map g := by
    simp [Module.imports, Keyed.keys, List.filterMap_map, Function.comp_def]
  have hmounted : Module.imports ((r.features.map (WiringSheet.wired s)).flatMap EntryPoint.controller) = [] := by
    rw [Module.imports, List.filterMap_flatMap]
    exact List.flatMap_eq_nil_iff.2 fun _ _ => rfl
  change Module.imports (EntryPoint.module (.ofRegistry r s)) = _
  simp only [EntryPoint.module, WiringSheet.ofRegistry, happ, List.map_map, hmounted]
  change Module.imports EntryPoint.frame ++
    Module.imports (r.features.map fun f => .importing (.effects (Identifier.containerModule f.1))) ++
    Module.imports (r.features.map fun f =>
      .importing (.named [Identifier.controllerClass f.1] (Identifier.controllerModule f.1))) ++ [] ++ [] ++ [] = _
  rw [hmap r.features fun n => .effects (Identifier.containerModule n),
    hmap r.features fun n => .named [Identifier.controllerClass n] (Identifier.controllerModule n)]
  simp only [List.append_nil]
  rfl

theorem reaches_entryPoint (hr : ∀ n ∈ r.names, ∃ f ∈ fs, f.name = n) : ∀ i ∈ (entryPoint r s).module.imports,
    i.source ∈ packages ∨ ∃ q ∈ modules r fs s, i.Reaches (entryPoint r s) q := by
  have hown {f : Feature} (hf : f ∈ fs) (k : FeatureDocument) : k.placed (f.sheet s) ∈ modules r fs s :=
    List.mem_append_right _ (List.mem_flatMap.2 ⟨f, hf, List.mem_map_of_mem k.mem_all⟩)
  rw [imports_entryPoint]
  simp only [List.forall_mem_append, List.forall_mem_map]
  refine ⟨⟨?_, fun n hn => ?_⟩, fun n hn => ?_⟩
  · have hdatabase : database ∈ modules r fs s := List.mem_append_left _ (by simp [core])
    have hframe : ∀ i ∈ Module.imports EntryPoint.frame, i.source ∈ packages ∨
        i.source = leading ["Server"] database.parts ∧ ∀ n ∈ i.names, n ∈ database.module.exported := by decide
    exact fun i hi => (hframe i hi).imp_right fun h => ⟨database, hdatabase, h.1, h.2⟩
  · obtain ⟨f, hf, rfl⟩ := hr n hn
    have hsource : Identifier.containerModule f.name = "../Features/" ++ f.name ++ "/container" := rfl
    refine .inr ⟨_, hown hf .container, String.toList_inj.1 ?_, List.forall_mem_nil _⟩
    simp [Import.effects, hsource, leading, apart, entryPoint, Placed.parts, FeatureDocument.placed,
      FeatureDocument.folder, FeatureDocument.stem, String.intercalate_cons_cons, Feature.sheet,
      FeatureSheet.ofMappings]
  · obtain ⟨f, hf, rfl⟩ := hr n hn
    have hsource : Identifier.controllerModule f.name =
        "../Features/" ++ f.name ++ "/delivery/controllers/" ++ f.name ++ ".controller" := rfl
    refine .inr ⟨_, hown hf .controller, String.toList_inj.1 ?_, List.forall_mem_singleton.2 (List.mem_singleton_self _)⟩
    simp [Import.named, hsource, leading, apart, entryPoint, Placed.parts, FeatureDocument.placed,
      FeatureDocument.folder, FeatureDocument.stem, String.intercalate_cons_cons, Feature.sheet,
      FeatureSheet.ofMappings]

theorem reaches_modules (hr : ∀ n ∈ r.names, ∃ f ∈ fs, f.name = n) (hp : p ∈ modules r fs s) :
    ∀ i ∈ p.module.imports, i.source ∈ packages ∨ ∃ q ∈ modules r fs s, i.Reaches p q := by
  have hcore : ∀ q ∈ core, q ∈ modules r fs s := fun q hq => List.mem_append_left _ (by simp [hq])
  rcases List.mem_append.1 hp with hp | hp
  · rcases List.mem_append.1 hp with hp | hp
    · have hshared : ∀ p ∈ jest :: core, ∀ i ∈ p.module.imports, i.source ∈ packages := by decide
      exact fun i hi => .inl (hshared p hp i hi)
    · rw [List.mem_singleton.1 hp]
      exact reaches_entryPoint hr
  · obtain ⟨f, hf, hp⟩ := List.mem_flatMap.1 hp
    obtain ⟨k, -, rfl⟩ := List.mem_map.1 hp
    intro i hi
    rcases k.reaches (f.sheet s) i hi with hpackage | ⟨q, hq, hreach⟩
    · exact .inl hpackage
    · refine .inr ⟨q, ?_, hreach⟩
      rcases List.mem_append.1 hq with hq | hq
      · exact hcore q hq
      · exact List.mem_append_right _ (List.mem_flatMap.2 ⟨f, hf, hq⟩)

theorem isReadable_mounted (hn : ∀ n ∈ r.names, Feature.IsIdentifier n) (hs : IsQuotable s.apiPrefix) :
    Module.IsReadable ((r.features.map (WiringSheet.wired s)).flatMap EntryPoint.controller) := by
  intro st hst
  obtain ⟨w, hw, hst⟩ := List.mem_flatMap.1 hst
  obtain ⟨x, hx, rfl⟩ := List.mem_map.1 hw
  have hname := hn x.1 (List.mem_map_of_mem hx)
  have hroute : Passes (.quoted '\'') (s.route x.1) (.quoted '\'') :=
    hs.passes_slash.append (hname.isBinding.passes Spot.isInner_quoted)
  have hvariable : Passes .code (Identifier.controllerVariable x.1) .code :=
    (hname.isBinding.append (.literal (by decide))).passes Spot.isInner_code
  have hclass : Passes .code (Identifier.controllerClass x.1) .code :=
    (hname.capitalize.append (.literal (by decide))).passes Spot.isInner_code
  have hdeclare : Quiet ("const" ++ " " ++ Identifier.controllerVariable x.1 ++
      (" = container.resolve(" ++ Identifier.controllerClass x.1 ++ ");")) :=
    (((Passes.literal .code (by decide)).append (.literal .code (by decide))).append hvariable |>.append
      (((Passes.literal .code (by decide)).append hclass).append (.literal .start (by decide)))).append
        (.literal .start (by decide))
  have hmount : Quiet ("app.use('" ++ s.route x.1 ++ "', " ++ Identifier.controllerVariable x.1 ++ ".getRouter());") :=
    ((((Passes.literal (.quoted '\'') (by decide)).append hroute).append (.literal .code (by decide))).append
      hvariable |>.append (.literal .start (by decide))).append (.literal .start (by decide))
  simp only [EntryPoint.controller, List.mem_cons, List.not_mem_nil, or_false] at hst
  rcases hst with rfl | rfl
  · refine ⟨List.forall_mem_singleton.2 ?_, fun h => by cases h⟩
    rw [if_neg Bool.false_ne_true, String.empty_append]
    exact hdeclare
  · exact List.forall_mem_singleton.2 hmount

theorem isReadable_wired (hn : ∀ n ∈ r.names, Feature.IsIdentifier n) :
    Module.IsReadable ((r.features.map (WiringSheet.wired s)).map fun f =>
        .importing ⟨none, [], f.containerModule⟩) ∧
      Module.IsReadable ((r.features.map (WiringSheet.wired s)).map fun f =>
        .importing ⟨none, [f.controllerClass], f.controllerModule⟩) := by
  have hinert {n : String} (h : n ∈ r.names) : AllInert n := (hn n h).isBinding.allInert
  unfold Module.IsReadable
  simp only [List.map_map, List.forall_mem_map]
  refine ⟨fun x hx => ?_, fun x hx => ?_⟩
  · have hname := hinert (List.mem_map_of_mem hx)
    refine Import.IsPlain.iff_bound.2 ⟨List.forall_mem_nil _, ?_⟩
    exact ((AllInert.literal (by decide)).append hname).append (.literal (by decide))
  · have hname := hinert (List.mem_map_of_mem hx)
    refine Import.IsPlain.iff_bound.2 ⟨List.forall_mem_singleton.2 ?_, ?_⟩
    · exact (hn x.1 (List.mem_map_of_mem hx)).capitalize.append (.literal (by decide))
    · exact ((((AllInert.literal (by decide)).append hname).append (.literal (by decide))).append hname).append
        (.literal (by decide))

theorem isReadable_modules (hfs : ∀ f ∈ fs, Feature.IsIdentifier f.name) (hmaps : ∀ f ∈ fs, f.Maps)
    (hplain : ∀ f ∈ fs, f.HasPlainFields) (hs : IsQuotable s.apiPrefix)
    (hr : ∀ n ∈ r.names, ∃ f ∈ fs, f.name = n) : ∀ p ∈ modules r fs s, p.module.IsReadable := by
  have hnames : ∀ n ∈ r.names, Feature.IsIdentifier n := by
    intro n hn
    obtain ⟨f, hf, rfl⟩ := hr n hn
    exact hfs f hf
  have hmounted := isReadable_mounted hnames hs
  obtain ⟨hcontainers, hcontrollers⟩ := isReadable_wired (s := s) hnames
  have hport : Passes .code (Number.intText s.port) .code :=
    .of_inert (fun c hc => isInert_numeral (Text.intText_numerals s.port hc)) Spot.isInner_code
  have hcommon : ∀ p ∈ jest :: core ++ [entryPoint r s], p.module.IsReadable := by
    simp [-List.map_map, core, jest, entryPoint, result, customError, database, SharedText.jest, SharedText.result,
      SharedText.customError, SharedText.database, SharedText.outcomeMembers, SharedText.outcomeBody,
      SharedText.throwing, EntryPoint.module, EntryPoint.frame, EntryPoint.startServer, WiringSheet.ofRegistry,
      Import.named, Import.effects, Import.default, Import.bound, Declaration.lines, Declaration.block, Keyword.text,
      braces, toString, Quiet]
    repeat' first
      | with_reducible apply And.intro
      | with_reducible assumption
      | with_reducible apply Passes.append
      | with_reducible exact .literal .code (by decide +kernel)
      | with_reducible exact .literal .start (by decide +kernel)
      | with_reducible exact IsBinding.literal (by decide +kernel)
      | with_reducible exact AllInert.literal (by decide +kernel)
      | with_reducible apply EndsName.append
      | with_reducible exact EndsName.literal (by decide +kernel)
  intro p hp
  rcases List.mem_append.1 hp with hp | hp
  · exact hcommon p hp
  · obtain ⟨f, hf, hp⟩ := List.mem_flatMap.1 hp
    obtain ⟨k, -, rfl⟩ := List.mem_map.1 hp
    exact FeatureModule.isReadable (Feature.isReadable_sheet (hmaps f hf) (hfs f hf) (hplain f hf) hs) k

theorem not_isRelative {i : Import} (h : i.source ∈ packages) : i.link.isRelative = false := by
  have hall : ∀ t ∈ packages, ("./".toList.isPrefixOf t.toList || "../".toList.isPrefixOf t.toList) = false := by decide
  exact hall i.source h

/-- Every relative link in a TypeScript document of a project leads to another document of it, which exports what is
imported. The features are named by identifiers; what is written between quotes or as it is must not break out. -/
theorem links_resolve (hfs : ∀ f ∈ fs, Feature.IsIdentifier f.name) (hplain : ∀ f ∈ fs, f.HasPlainFields)
    (hs : IsQuotable s.apiPrefix) (hdocs : documents name fs s = .ok ds) :
    ∀ d ∈ ds, d.IsTypeScript → ∀ l ∈ links d.content, l.isRelative = true → Resolves ds d.path l := by
  have hmaps := maps_of_documents hdocs
  have hr : ∀ n ∈ (Registry.ofFeatures name fs).names, ∃ f ∈ fs, f.name = n := fun n => exists_of_mem_names
  obtain rfl := Except.ok.inj ((documents_of_identifiers name s hfs hmaps).symm.trans hdocs)
  have hproper := isProper_modules (r := Registry.ofFeatures name fs) (s := s) hfs
  have hreadable := isReadable_modules hfs hmaps hplain hs hr
  intro d hd ht l hl hrelative
  obtain ⟨p, hp, rfl⟩ := mem_documents_iff.1 ⟨hd, ht⟩
  have hlinks : links p.document.content = p.module.imports.map Import.link := Module.links_text (hreadable p hp)
  rw [hlinks] at hl
  obtain ⟨i, hi, rfl⟩ := List.mem_map.1 hl
  rcases reaches_modules hr hp i hi with hpackage | ⟨q, hq, hreach⟩
  · rw [not_isRelative hpackage] at hrelative
    cases hrelative
  · refine ⟨q.path, hreach.target?_eq (hproper p hp) (hproper q hq),
      ⟨q.document, (mem_documents_iff.2 ⟨q, hq, rfl⟩).1, rfl⟩, fun e he hpath n hn => ?_⟩
    have hts : e.IsTypeScript := by
      rw [Document.IsTypeScript, hpath]
      exact isTypeScript_document q
    obtain ⟨c, hc, rfl⟩ := mem_documents_iff.1 ⟨he, hts⟩
    obtain ⟨hfolder, hstem⟩ := Placed.path_inj (hproper c hc) (hproper q hq) hpath
    have hexported : n ∈ c.module.exported := exported_eq_of_place hc hq hfolder hstem ▸ hreach.names n hn
    exact Module.exported_subset (hreadable c hc) n hexported

section User

def user : Feature := ⟨"user", [⟨"first name", "string", "minlength=3"⟩]⟩

theorem isIdentifier_user : ∀ f ∈ [user], Feature.IsIdentifier f.name := by decide

theorem maps_user : ∀ f ∈ [user], f.Maps := List.forall_mem_singleton.2 ⟨_, rfl⟩

theorem hasPlainFields_user : ∀ f ∈ [user], f.HasPlainFields := by decide

theorem isReadable_user (hs : IsQuotable s.apiPrefix) :
    (entryPoint (.ofFeatures "Shop" [user]) s).module.IsReadable :=
  isReadable_modules isIdentifier_user maps_user hasPlainFields_user hs (fun _ => exists_of_mem_names) _
    (List.mem_append_left _ (List.mem_append_right _ (List.mem_singleton_self _)))

theorem user_links_resolve :
    ∃ ds, documents "Shop" [user] .standard = .ok ds ∧
      (∃ d ∈ ds, d.path = "Server/index.ts" ∧
        ⟨["connectToDatabase"], "../Core/config/database"⟩ ∈ links d.content) ∧
      ∀ d ∈ ds, d.IsTypeScript → ∀ l ∈ links d.content, l.isRelative = true → Resolves ds d.path l := by
  have hs : IsQuotable Settings.standard.apiPrefix := by decide
  have hdocs := documents_of_identifiers "Shop" .standard isIdentifier_user maps_user
  refine ⟨_, hdocs, ⟨_, List.mem_append_left _ (List.mem_append_right _ List.mem_cons_self), rfl, ?_⟩,
    links_resolve isIdentifier_user hasPlainFields_user hs hdocs⟩
  change _ ∈ links (Module.text (entryPoint (.ofFeatures "Shop" [user]) .standard).module)
  rw [Module.links_text (isReadable_user hs), imports_entryPoint]
  simp [EntryPoint.frame, Module.imports, Import.link, Import.named, Import.default, Import.effects]

/-- A prefix that settings take and that ends the quotes which are put around it. -/
def breakingPrefix : String := "/a', express.json());\nimport \x7b b \x7d from './b';\napp.use('/c"

theorem mem_links_breakingPrefix : ⟨["b"], "./b"⟩ ∈ links (EntryPoint.render (.ofFeatures "Shop" [user])
    { Settings.standard with apiPrefix := breakingPrefix }).content := by
  have hgood : (entryPoint (.ofFeatures "Shop" [user]) .standard).module.IsReadable := isReadable_user (by decide)
  rw [← List.take_append_drop 15 (entryPoint (.ofFeatures "Shop" [user]) .standard).module] at hgood
  have hmodule : EntryPoint.module (.ofRegistry (.ofFeatures "Shop" [user])
      { Settings.standard with apiPrefix := breakingPrefix }) =
        (entryPoint (.ofFeatures "Shop" [user]) .standard).module.take 15 ++
          .running ["app.use('" ++ (breakingPrefix ++ "/" ++ "user") ++ "', " ++ "userController" ++ ".getRouter());"] ::
          (entryPoint (.ofFeatures "Shop" [user]) .standard).module.drop 16 := rfl
  have hmount (cs : List Char) :
      ("app.use('" ++ (breakingPrefix ++ "/" ++ "user") ++ "', " ++ "userController" ++ ".getRouter());").toList ++ cs =
        "app.use('/a', express.json());\n".toList ++ ((Import.named ["b"] "./b").line.toList ++ '\n' ::
          ("app.use('/c/user', userController.getRouter());".toList ++ cs)) := by
    simp [breakingPrefix, Import.line, Import.named, Import.clause, braces]
  have hbefore : Spot.start.after? "app.use('/a', express.json());\n".toList = some .start := by decide
  have himport : (Import.named ["b"] "./b").IsPlain := Import.IsPlain.iff_bound.2 ⟨by decide, .literal (by decide)⟩
  rw [EntryPoint.render, hmodule, Module.links_append (Module.isReadable_append.1 hgood).1, links,
    Module.toList_text_cons]
  simp only [Statement.lines, List.map_cons, List.map_nil, Text.unlines_cons, Text.unlines_nil, List.append_assoc]
  rw [hmount, (Spot.links_of_after? hbefore (by decide) _).1, himport.links_line]
  exact List.mem_append_right _ List.mem_cons_self

theorem breakingPrefix_unresolved :
    let s : Settings := { Settings.standard with apiPrefix := breakingPrefix }
    Settings.ofData? (.mapping [(.str "api_prefix", .str breakingPrefix)]) = .ok s ∧
      ∃ ds, documents "Shop" [user] s = .ok ds ∧ ∃ d ∈ ds, d.IsTypeScript ∧
        ∃ l ∈ links d.content, l.isRelative = true ∧ ¬Resolves ds d.path l := by
  intro s
  have hdocs := documents_of_identifiers "Shop" s isIdentifier_user maps_user
  have htarget : (⟨["b"], "./b"⟩ : Link).target? "Server/index.ts" = some "Server/b.ts" := by decide +kernel
  have hpaths : "Server/b.ts" ∉ (common "Shop" (.ofFeatures "Shop" [user]) s ++
      [user].flatMap fun f => f.own s).map Document.path := by decide +kernel
  refine ⟨rfl, _, hdocs, EntryPoint.render (.ofFeatures "Shop" [user]) s, ?_, by decide, ⟨["b"], "./b"⟩,
    mem_links_breakingPrefix, rfl, ?_⟩
  · exact List.mem_append_left _ (List.mem_append_right _ List.mem_cons_self)
  · rintro ⟨t, ht, ⟨e, he, hpath⟩, -⟩
    obtain rfl := Option.some.inj (htarget.symm.trans ht)
    exact hpaths (hpath ▸ List.mem_map_of_mem he)

end User

end Project

end ApiScaffold
