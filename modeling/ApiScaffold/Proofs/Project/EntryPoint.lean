import ApiScaffold.Project.EntryPoint
import ApiScaffold.Proofs.Feature.Name
import ApiScaffold.Proofs.Keyed
import ApiScaffold.Proofs.Text.Digit
import ApiScaffold.Proofs.Text.Lines

namespace ApiScaffold

namespace EntryPoint

open TypeScript Text

def containerLine (n : String) : String := (Import.effects (Identifier.containerModule n)).line

def controllerLine (n : String) : String :=
  (Import.named [Identifier.controllerClass n] (Identifier.controllerModule n)).line

def body (s : WiringSheet) : Module := [
  .gap,
  .running ["dotenv.config();"],
  .gap,
  .declaring ⟨[], false, .constant, "app", " = express();", []⟩,
  .declaring ⟨[], false, .constant, "port", s!" = process.env.PORT || {s.port};", []⟩,
  .gap,
  .running ["app.use(express.json());"]] ++
  s.features.flatMap controller ++ [
  .gap,
  .declaring startServer,
  .gap,
  .running ["startServer();"]]

theorem module_lines (r : Registry) (s : Settings) :
    (module (.ofRegistry r s)).lines = Module.lines frame ++ r.names.map containerLine ++
      r.names.map controllerLine ++ Module.lines (body (.ofRegistry r s)) := by
  have hmap (g : String → Import) (fs : List (String × String)) :
      Module.lines (fs.map fun f => .importing (g f.1)) = (Keyed.keys fs).map fun n => (g n).line := by
    simp [Module.lines, Keyed.keys, List.flatMap_map, Statement.lines, ← List.map_eq_flatMap]
  have happ (m n : Module) : Module.lines (m ++ n) = Module.lines m ++ Module.lines n :=
    List.flatMap_append
  have hmod : module (.ofRegistry r s) = frame ++
      r.features.map (fun f => .importing (.effects (Identifier.containerModule f.1))) ++
      r.features.map (fun f => .importing (.named [Identifier.controllerClass f.1]
        (Identifier.controllerModule f.1))) ++ body (.ofRegistry r s) := by
    simp only [module, body, WiringSheet.ofRegistry, List.map_map, List.append_assoc]
    rfl
  rw [hmod, happ, happ, happ, hmap fun n => .effects (Identifier.containerModule n),
    hmap fun n => .named [Identifier.controllerClass n] (Identifier.controllerModule n)]
  rfl

theorem controllerClass_isWord {n : String} (hn : Feature.IsName n) :
    IsWord (Identifier.controllerClass n).toList :=
  (capitalize_isWord hn.isWord).concat (by decide)

def IsInner (l : String) : Prop := l.toList.head? ≠ some 'i' ∧ IsPhrase l.toList

instance (l : String) : Decidable (IsInner l) :=
  inferInstanceAs (Decidable (l.toList.head? ≠ some 'i' ∧ IsPhrase l.toList))

theorem IsInner.append {a b : String} (ha : IsInner a) (hne : a ≠ "") (hb : IsPhrase b.toList) :
    IsInner (a ++ b) := by
  obtain ⟨hhead, ha⟩ := ha
  have hne' : a.toList ≠ [] := by simpa using hne
  constructor
  · rw [String.toList_append]
    cases hc : a.toList with
    | nil => exact absurd hc hne'
    | cons c cs => simpa [hc] using hhead
  · rw [String.toList_append]
    exact ha.append hb

theorem controller_lines {n : String} (hn : Feature.IsName n) {s : Settings} (hs : IsWord s.apiPrefix.toList)
    (x : String) : ∀ l ∈ Module.lines (controller (WiringSheet.wired s (n, x))), IsInner l := by
  have hvar : IsWord (Identifier.controllerVariable n).toList := hn.isWord.concat (by decide)
  have hclass := controllerClass_isWord hn
  have hroute : IsWord (s.route n).toList := (hs.concat (by decide)).concat hn.isWord
  have hdeclare : IsInner ("const " ++ Identifier.controllerVariable n ++
      (" = container.resolve(" ++ Identifier.controllerClass n ++ ");")) :=
    (IsInner.append (by decide) (by decide) hvar.isPhrase).append (by simp)
      ((IsPhrase.concat (by decide) hclass.isPhrase).concat (by decide))
  have hmount : IsInner ("app.use('" ++ s.route n ++ "', " ++ Identifier.controllerVariable n ++
      ".getRouter());") :=
    (((IsInner.append (by decide) (by decide) hroute.isPhrase).append (by simp) (by decide)).append (by simp)
      hvar.isPhrase).append (by simp) (by decide)
  intro l hl
  simp [controller, WiringSheet.wired, Module.lines, Statement.lines, Declaration.lines, Keyword.text] at hl
  rcases hl with rfl | rfl
  · exact hdeclare
  · exact hmount

theorem body_lines {r : Registry} (hr : ∀ n ∈ r.names, Feature.IsName n) {s : Settings}
    (hs : IsWord s.apiPrefix.toList) : ∀ l ∈ Module.lines (body (.ofRegistry r s)), IsInner l := by
  intro l hl
  simp only [body, Module.lines, List.flatMap_append, List.mem_append] at hl
  rcases hl with (hl | hl) | hl
  · have hport : IsInner ("const port = process.env.PORT || " ++ Number.intText s.port ++ ";") :=
      (IsInner.append (by decide) (by decide) (intText_isWord _).isPhrase).append (by simp) (by decide)
    simp [Statement.lines, Declaration.lines, Keyword.text] at hl
    rcases hl with rfl | rfl | rfl | rfl | rfl | rfl | rfl
    · decide
    · decide
    · decide
    · decide
    · exact hport
    · decide
    · decide
  · simp only [WiringSheet.ofRegistry, List.flatMap_map, List.mem_flatMap] at hl
    obtain ⟨st, ⟨f, hf, hst⟩, hl⟩ := hl
    exact controller_lines (hr _ (List.mem_map_of_mem hf)) hs f.2 l (List.mem_flatMap.2 ⟨st, hst, hl⟩)
  · revert l
    decide +kernel

theorem toList_controllerLine (n : String) :
    (controllerLine n).toList = "import \x7b ".toList ++ ((Identifier.controllerClass n).toList ++
      (" \x7d from '../Features/".toList ++ (n.toList ++ ("/delivery/controllers/".toList ++
        ((n ++ ".controller").toList ++ "';".toList))))) := by
  change ("import " ++ ("\x7b " ++ Identifier.controllerClass n ++ " \x7d" ++ " from ") ++ "'" ++
    ("../Features/" ++ n ++ "/delivery/controllers/" ++ n ++ ".controller") ++ "';").toList = _
  simp

/-- A line in which no import from a feature's folder is found. -/
structure Silent (l : String) : Prop where
  oneLine : '\n' ∉ l.toList
  noController : ∀ r, controllerImport? (l.toList ++ '\n' :: r) = none
  noFeature : ∀ r, featureImport? (l.toList ++ '\n' :: r) = none

theorem frame_isPhrase : ∀ l ∈ Module.lines frame, IsPhrase l.toList := by decide +kernel

theorem frame_silent : ∀ l ∈ Module.lines frame, Silent l := by
  intro l hl
  have hline : '\n' ∉ l.toList := (frame_isPhrase l hl).not_mem rfl (by decide)
  simp only [Module.lines, frame, List.flatMap_cons, List.flatMap_nil, Statement.lines, List.mem_append,
    List.mem_singleton, List.not_mem_nil, or_false] at hl
  rcases hl with rfl | rfl | rfl | rfl | rfl
  · exact ⟨hline, fun _ => rfl, fun _ => rfl⟩
  · exact ⟨hline, fun _ => rfl, fun _ => rfl⟩
  · exact ⟨hline, fun _ => rfl, fun _ => rfl⟩
  · exact ⟨hline, fun _ => rfl, fun _ => rfl⟩
  · exact ⟨hline, fun _ => rfl, fun _ => rfl⟩

theorem toList_containerLine (n : String) :
    (containerLine n).toList =
      "import '../Features/".toList ++ (n.toList ++ "/container';".toList) := by
  change ("import " ++ "" ++ "'" ++ ("../Features/" ++ n ++ "/container") ++ "';").toList = _
  simp

theorem containerLine_isPhrase {n : String} (hn : Feature.IsName n) : IsPhrase (containerLine n).toList := by
  rw [toList_containerLine]
  exact IsPhrase.append (by decide) (hn.isWord.isPhrase.append (by decide))

theorem containerLine_silent {n : String} (hn : Feature.IsName n) : Silent (containerLine n) where
  oneLine := (containerLine_isPhrase hn).not_mem rfl (by decide)
  noController r := by
    rw [toList_containerLine]
    rfl
  noFeature r := by
    rw [toList_containerLine]
    rfl

theorem IsInner.silent {l : String} (h : IsInner l) : Silent l := by
  obtain ⟨hhead, hphrase⟩ := h
  have hlead (ps r : List Char) : stripLead? ('i' :: ps) (l.toList ++ '\n' :: r) = none := by
    cases hl : l.toList with
    | nil => rfl
    | cons c cs =>
        have hc : 'i' ≠ c := by
          rintro rfl
          exact hhead (by rw [hl]; rfl)
        rw [List.cons_append, stripLead?, if_neg hc]
  refine ⟨hphrase.not_mem rfl (by decide), fun r => ?_, fun r => ?_⟩
  · have h := hlead "mport \x7b ".toList r
    rw [controllerImport?]
    exact congrArg (· >>= _) h
  · have h := hlead "mport \x7b".toList r
    rw [featureImport?]
    exact congrArg (· >>= _) h

theorem Silent.reads {ls : List String} (h : ∀ l ∈ ls, Silent l) :
    Reads controllerImport? (ls.map String.toList) [] ∧ Reads featureImport? (ls.map String.toList) [] := by
  constructor
  · refine .passAll ?_ ?_
    · intro l hl
      obtain ⟨t, ht, rfl⟩ := List.mem_map.1 hl
      exact (h t ht).oneLine
    · intro l hl
      obtain ⟨t, ht, rfl⟩ := List.mem_map.1 hl
      exact (h t ht).noController
  · refine .passAll ?_ ?_
    · intro l hl
      obtain ⟨t, ht, rfl⟩ := List.mem_map.1 hl
      exact (h t ht).oneLine
    · intro l hl
      obtain ⟨t, ht, rfl⟩ := List.mem_map.1 hl
      exact (h t ht).noFeature

theorem featureImport?_of_none {cs r : List Char} (hopen : stripLead? "import \x7b".toList cs = some r)
    (hclose : stripLead? "\x7d from '../Features/".toList (r.span (· != '\x7d')).2 = none) :
    featureImport? cs = none := by
  unfold featureImport?
  rw [hopen]
  exact congrArg (· >>= _) hclose

theorem featureImport?_of_some {cs r₁ r₂ r₃ name target r : List Char}
    (hopen : stripLead? "import \x7b".toList cs = some r₁)
    (hclose : stripLead? "\x7d from '../Features/".toList (r₁.span (· != '\x7d')).2 = some r₂)
    (hname : folderName r₂ = (name, '/' :: r₃)) (hne : name ≠ [])
    (hquote : quoted r₃ = (target, '\'' :: ';' :: r)) (hblank : lineIsBlank r = true) :
    featureImport? cs = some ((name, cs.take (cs.length - r.length)), r) := by
  have hslash : stripLead? ['/'] ('/' :: r₃) = some r₃ := rfl
  have hend : stripLead? ['\''] ('\'' :: ';' :: r) = some (';' :: r) := rfl
  unfold featureImport?
  simp only [hopen, Option.bind_eq_bind, Option.bind_some, hclose, hname, hslash, hquote, hend, hblank]
  simp [hne]

theorem folderName_append {n : String} (hn : Feature.IsName n) (cs : List Char) :
    folderName (n.toList ++ '/' :: cs) = (n.toList, '/' :: cs) := by
  refine span_append ?_ rfl
  intro c hc
  have hslash : c ≠ '/' := fun e => hn.noSlash (e ▸ hc)
  have hquote : c ≠ '\'' := fun e => hn.noQuote (e ▸ hc)
  simp [hslash, hquote]

theorem quoted_append {xs : List Char} (h : '\'' ∉ xs) (cs : List Char) :
    quoted (xs ++ '\'' :: cs) = (xs, '\'' :: cs) := by
  refine span_append ?_ rfl
  intro c hc
  have hquote : c ≠ '\'' := fun e => h (e ▸ hc)
  simp [hquote]

theorem controllerImport?_of_some {cs r₁ r₂ r₃ r₄ r₅ binding name target r : List Char}
    (hopen : stripLead? "import \x7b ".toList cs = some r₁)
    (hbinding : (r₁.span fun c => !isBlank c) = (binding, r₂))
    (hclass : "Controller".toList.isSuffixOf binding = true) (hlength : 10 < binding.length)
    (hclose : stripLead? " \x7d from '../Features/".toList r₂ = some r₃)
    (hname : folderName r₃ = (name, r₄)) (hne : name ≠ [])
    (hfolder : stripLead? "/delivery/controllers/".toList r₄ = some r₅)
    (hquote : quoted r₅ = (target, '\'' :: ';' :: r)) (htarget : target ≠ [])
    (hblank : lineIsBlank r = true) : controllerImport? cs = some (name, r) := by
  have hend : stripLead? "';".toList ('\'' :: ';' :: r) = some r := rfl
  unfold controllerImport?
  simp only [hopen, Option.bind_eq_bind, Option.bind_some, hbinding, hclass, hlength, hclose, hname,
    hfolder, hquote, hend, hblank]
  simp [hne, htarget]

theorem controllerClass_isSuffixOf (n : String) :
    "Controller".toList.isSuffixOf (Identifier.controllerClass n).toList = true := by
  rw [Identifier.controllerClass, String.toList_append, List.isSuffixOf_iff_suffix]
  exact List.suffix_append _ _

theorem controllerClass_length {n : String} (hn : n ≠ "") :
    10 < (Identifier.controllerClass n).toList.length := by
  have hpos : 0 < (capitalize n).toList.length :=
    List.length_pos_iff.2 (by simpa using capitalize_ne_empty hn)
  rw [Identifier.controllerClass, String.toList_append, List.length_append]
  exact Nat.lt_add_of_pos_left hpos

theorem controllerImport?_controllerLine {n : String} (hn : Feature.IsName n) (r : List Char) :
    controllerImport? ((controllerLine n).toList ++ '\n' :: r) = some (n.toList, '\n' :: r) := by
  have hword : ∀ c ∈ (Identifier.controllerClass n).toList, (!isBlank c) = true := by
    intro c hc
    rw [controllerClass_isWord hn c hc]
    rfl
  have hquote : '\'' ∉ (n ++ ".controller").toList := by
    rw [String.toList_append, List.mem_append]
    rintro (h | h)
    · exact hn.noQuote h
    · exact absurd h (by decide)
  rw [toList_controllerLine]
  simp only [List.append_assoc]
  exact controllerImport?_of_some (stripLead?_append _ _) (span_append hword rfl)
    (controllerClass_isSuffixOf n) (controllerClass_length hn.ne_empty) (stripLead?_append _ _)
    (folderName_append hn _) (by simpa using hn.ne_empty) (stripLead?_append _ _)
    (quoted_append hquote _) (by simp) rfl

theorem stripLead?_controllerClass {n : String} (hn : Feature.IsName n) {as bs : List Char}
    (hsplit : (Identifier.controllerClass n).toList = as ++ '\x7d' :: bs) (cs : List Char) :
    stripLead? "\x7d from '../Features/".toList ('\x7d' :: (bs ++ ' ' :: cs)) = none := by
  cases bs with
  | nil =>
      have hlast : (Identifier.controllerClass n).toList.getLast? = some 'r' := by
        rw [Identifier.controllerClass, String.toList_append, List.getLast?_append]
        rfl
      rw [hsplit, List.getLast?_append] at hlast
      simp at hlast
  | cons b bs =>
      have hb : isBlank b = false := controllerClass_isWord hn b (by simp [hsplit])
      have hne : ' ' ≠ b := by
        rintro rfl
        simp [isBlank] at hb
      exact if_neg hne

/-- The import of a controller is taken for the feature's, or for no import of names at all: its binding
may have a brace in it. -/
theorem featureImport?_controllerLine {n : String} (hn : Feature.IsName n) :
    (∀ r, featureImport? ((controllerLine n).toList ++ '\n' :: r) = none) ∨
      ∀ r, featureImport? ((controllerLine n).toList ++ '\n' :: r) =
        some ((n.toList, (controllerLine n).toList), '\n' :: r) := by
  by_cases hbrace : '\x7d' ∈ (Identifier.controllerClass n).toList
  · left
    intro r
    obtain ⟨as, bs, hsplit, has⟩ := List.eq_append_cons_of_mem hbrace
    have hbefore : ∀ c ∈ ' ' :: as, (c != '\x7d') = true := by
      intro c hc
      have hne : c ≠ '\x7d' := by
        rintro rfl
        exact has (by simpa using hc)
      simpa using hne
    rw [toList_controllerLine, hsplit]
    simp only [List.append_assoc, List.cons_append]
    refine featureImport?_of_none (r := (' ' :: as) ++ '\x7d' :: (bs ++ ' ' :: _)) rfl ?_
    rw [span_append hbefore rfl]
    exact stripLead?_controllerClass hn hsplit _
  · right
    intro r
    have hbefore : ∀ c ∈ ' ' :: (Identifier.controllerClass n).toList ++ [' '], (c != '\x7d') = true := by
      intro c hc
      have hne : c ≠ '\x7d' := by
        rintro rfl
        exact hbrace (by simpa using hc)
      simpa using hne
    obtain ⟨after, hafter⟩ : ∃ a, a = "delivery/controllers/".toList ++ (n ++ ".controller").toList :=
      ⟨_, rfl⟩
    have hquote : '\'' ∉ after := by
      rw [hafter, List.mem_append, String.toList_append, List.mem_append]
      rintro (h | h | h)
      · exact absurd h (by decide)
      · exact hn.noQuote h
      · exact absurd h (by decide)
    have hline : (controllerLine n).toList ++ '\n' :: r = "import \x7b".toList ++
        (' ' :: (Identifier.controllerClass n).toList ++ [' '] ++ ("\x7d from '../Features/".toList ++
          (n.toList ++ '/' :: (after ++ '\'' :: ';' :: '\n' :: r)))) := by
      rw [toList_controllerLine, hafter]
      simp
    have htake : ((controllerLine n).toList ++ '\n' :: r).take
        (((controllerLine n).toList ++ '\n' :: r).length - ('\n' :: r).length) =
          (controllerLine n).toList := by
      rw [List.length_append, Nat.add_sub_cancel, List.take_left]
    have hopen := stripLead?_append "import \x7b".toList (' ' :: (Identifier.controllerClass n).toList ++
      [' '] ++ ("\x7d from '../Features/".toList ++ (n.toList ++ '/' ::
        (after ++ '\'' :: ';' :: '\n' :: r))))
    rw [← hline] at hopen
    have hfound := featureImport?_of_some hopen
      (by rw [span_append hbefore rfl]; exact stripLead?_append _ _)
      (folderName_append hn _) (by simpa using hn.ne_empty) (quoted_append hquote _) rfl
    rw [hfound, htake]

theorem controllerLine_isPhrase {n : String} (hn : Feature.IsName n) :
    IsPhrase (controllerLine n).toList := by
  have hname := hn.isWord.isPhrase
  have hfile : IsPhrase (n ++ ".controller").toList := hname.concat (by decide)
  rw [toList_controllerLine]
  exact IsPhrase.append (by decide) ((controllerClass_isWord hn).isPhrase.append
    (IsPhrase.append (by decide) (hname.append (IsPhrase.append (by decide) (hfile.append (by decide))))))

variable {r : Registry} {s : Settings}

theorem reads_controllers {ns : List String} (hn : ∀ n ∈ ns, Feature.IsName n) :
    Reads controllerImport? ((ns.map controllerLine).map String.toList) (ns.map String.toList) ∧
      ∃ fs, Reads featureImport? ((ns.map controllerLine).map String.toList) fs ∧
        ∀ f ∈ fs, ∃ n ∈ ns, f.1 = n.toList := by
  induction ns with
  | nil => exact ⟨Reads.nil, [], Reads.nil, by simp⟩
  | cons n ns ih =>
      obtain ⟨hcontrollers, fs, hfeatures, hfs⟩ := ih fun m hm => hn m (by simp [hm])
      have hline : '\n' ∉ (controllerLine n).toList :=
        (controllerLine_isPhrase (hn n (by simp))).not_mem rfl (by decide)
      refine ⟨(Reads.find (m := []) (by simp) (by simp)
        (controllerImport?_controllerLine (hn n (by simp)))).append hcontrollers, ?_⟩
      rcases featureImport?_controllerLine (hn n (by simp)) with h | h
      · refine ⟨fs, (Reads.pass hline h).append hfeatures, fun f hf => ?_⟩
        obtain ⟨m, hm, hf⟩ := hfs f hf
        exact ⟨m, by simp [hm], hf⟩
      · refine ⟨_, (Reads.find (m := []) (by simp) (by simp) h).append hfeatures, fun f hf => ?_⟩
        rcases List.mem_append.1 hf with hf | hf
        · exact ⟨n, by simp, by rw [List.mem_singleton.1 hf]⟩
        · obtain ⟨m, hm, hf⟩ := hfs f hf
          exact ⟨m, by simp [hm], hf⟩

theorem scan_render (hr : ∀ n ∈ r.names, Feature.IsName n) (hs : IsWord s.apiPrefix.toList) :
    scan controllerImport? (render r s).content.toList = r.names.map String.toList ∧
      ∀ f ∈ scan featureImport? (render r s).content.toList, ∃ n ∈ r.names, f.1 = n.toList := by
  obtain ⟨hcframe, hfframe⟩ := Silent.reads frame_silent
  have hcontainers : ∀ l ∈ r.names.map containerLine, Silent l := by
    intro l hl
    obtain ⟨n, hn, rfl⟩ := List.mem_map.1 hl
    exact containerLine_silent (hr n hn)
  obtain ⟨hccontainer, hfcontainer⟩ := Silent.reads hcontainers
  obtain ⟨hcontrollers, fs, hfeatures, hfs⟩ := reads_controllers hr
  obtain ⟨hcbody, hfbody⟩ := Silent.reads fun l hl => (body_lines hr hs l hl).silent
  have hc := ((hcframe.append hccontainer).append hcontrollers).append hcbody
  have hf := ((hfframe.append hfcontainer).append hfeatures).append hfbody
  simp only [← List.map_append, ← module_lines, List.nil_append, List.append_nil] at hc hf
  have htext : (render r s).content.toList =
      unlines ((Module.lines (module (.ofRegistry r s))).map String.toList) := toList_linesText _
  rw [htext, hc.scan_eq rfl, hf.scan_eq rfl]
  exact ⟨rfl, hfs⟩

/-- The entry point wires exactly the features that it was written for, in their order. -/
theorem names_render (hr : ∀ n ∈ r.names, Feature.IsName n) (hnodup : r.names.Nodup)
    (hs : IsWord s.apiPrefix.toList) : names (render r s).content = r.names := by
  have hpairs : Keyed.keys (r.names.map fun n => (n, ())) = r.names := by
    simp [Keyed.keys, Function.comp_def]
  rw [names, (scan_render hr hs).1, List.map_map]
  have hmap : r.names.map ((fun n => (String.ofList n, ())) ∘ String.toList) = r.names.map (·, ()) := by
    simp
  rw [hmap, Keyed.ofPairs_of_nodup (hpairs.symm ▸ hnodup), hpairs]

theorem strays_render (hr : ∀ n ∈ r.names, Feature.IsName n) (hnodup : r.names.Nodup)
    (hs : IsWord s.apiPrefix.toList) : strays (render r s).content = [] := by
  rw [strays, names_render hr hnodup hs, List.filter_eq_nil_iff]
  intro p hp
  obtain ⟨f, hf, rfl⟩ := List.mem_map.1 hp
  obtain ⟨n, hn, hf⟩ := (scan_render hr hs).2 f hf
  simpa [hf] using hn

theorem noReturn_render (hr : ∀ n ∈ r.names, Feature.IsName n) (hs : IsWord s.apiPrefix.toList) :
    '\r' ∉ (render r s).content.toList := by
  have htext : (render r s).content.toList =
      unlines ((Module.lines (module (.ofRegistry r s))).map String.toList) := toList_linesText _
  have hphrase : ∀ l ∈ Module.lines (module (.ofRegistry r s)), IsPhrase l.toList := by
    intro l hl
    rw [module_lines, List.mem_append, List.mem_append, List.mem_append] at hl
    rcases hl with ((hl | hl) | hl) | hl
    · exact frame_isPhrase l hl
    · obtain ⟨n, hn, rfl⟩ := List.mem_map.1 hl
      exact containerLine_isPhrase (hr n hn)
    · obtain ⟨n, hn, rfl⟩ := List.mem_map.1 hl
      exact controllerLine_isPhrase (hr n hn)
    · exact (body_lines hr hs l hl).2
  rw [htext]
  refine not_mem_unlines (by decide) fun l hl => ?_
  obtain ⟨t, ht, rfl⟩ := List.mem_map.1 hl
  exact (hphrase t ht).not_mem rfl (by decide)

end EntryPoint

end ApiScaffold
