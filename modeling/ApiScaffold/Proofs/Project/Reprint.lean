import ApiScaffold.Proofs.Project.EntryPoint
import ApiScaffold.Proofs.Text.Capital

namespace ApiScaffold

namespace EntryPoint

open TypeScript Text

variable {as bs cs l r : List Char} {n : String}

/-- The pieces of an import that is read, in their order. -/
structure IsControllerImport (cs binding name target r : List Char) : Prop where
  eq_append : cs = "import \x7b ".toList ++ (binding ++ (" \x7d from '../Features/".toList ++ (name ++
    ("/delivery/controllers/".toList ++ (target ++ ("';".toList ++ r))))))
  isWord : IsWord binding
  isClass : "Controller".toList <:+ binding
  length : 10 < binding.length
  name_ne : name ≠ []
  noSlash : '/' ∉ name
  noQuote : '\'' ∉ name

theorem controllerImport?_inv {name : List Char} (h : controllerImport? cs = some (name, r)) :
    ∃ binding target, IsControllerImport cs binding name target r := by
  unfold controllerImport? at h
  simp only [Option.bind_eq_bind, Option.bind_eq_some_iff] at h
  obtain ⟨r₁, hopen, h⟩ := h
  obtain ⟨hbinding, hword⟩ := span_eq (p := fun c => !isBlank c) r₁
  split at h
  · cases h
  next hclass =>
    simp only [Option.bind_eq_some_iff] at h
    obtain ⟨r₂, hclose, r₃, hfolder, r₄, hend, h⟩ := h
    split at h
    · cases h
    next hne =>
      obtain ⟨rfl, rfl⟩ := Prod.mk.inj (Option.some.inj h)
      obtain ⟨hname, hfree⟩ := span_eq (p := fun c => c != '/' && c != '\'') r₂
      obtain ⟨htarget, -⟩ := span_eq (p := (· != '\'')) r₃
      simp only [Bool.not_eq_true, Bool.not_eq_false', Bool.and_eq_true, decide_eq_true_eq,
        List.isSuffixOf_iff_suffix] at hclass
      simp only [Bool.or_eq_true, not_or, List.isEmpty_iff] at hne
      refine ⟨(r₁.span fun c => !isBlank c).1, (quoted r₃).1, ?_, fun c hc => by simpa using hword c hc,
        hclass.1, hclass.2, hne.1.1, ?_, ?_⟩
      · rw [← eq_append_of_stripLead? hend, folderName, quoted, ← htarget,
          ← eq_append_of_stripLead? hfolder, folderName, ← hname, ← eq_append_of_stripLead? hclose,
          ← hbinding, ← eq_append_of_stripLead? hopen]
      · intro hc
        simpa using hfree _ hc
      · intro hc
        simpa using hfree _ hc

/-- No quotation mark stands before a dot, as it does before the place that a controller comes from. -/
def Undotted (l : List Char) : Prop := ¬['\'', '.'] <:+: l

instance (l : List Char) : Decidable (Undotted l) := inferInstanceAs (Decidable (¬['\'', '.'] <:+: l))

theorem Undotted.of_noQuote (h : '\'' ∉ l) : Undotted l := fun hl => h (hl.subset (by simp))

theorem Undotted.append (ha : '\'' ∉ as) (hb : Undotted bs) : Undotted (as ++ bs) := by
  rintro ⟨cs, ds, h⟩
  rw [List.append_assoc, List.cons_append] at h
  obtain ⟨es, hes, -⟩ := append_eq_break_right h.symm ha
  exact hb ⟨es, ds, by simpa using hes.symm⟩

theorem Undotted.after (ha : Undotted as) (hlast : as.getLast? ≠ some '\'') (hb : Undotted bs) :
    Undotted (as ++ bs) := by
  rintro ⟨cs, ds, h⟩
  rw [List.append_assoc, List.cons_append] at h
  rcases append_eq_break h.symm with ⟨es, has, hes⟩ | ⟨es, hbs, -⟩
  · cases es with
    | nil => exact hlast (by rw [has, List.getLast?_concat])
    | cons e es =>
        obtain ⟨rfl, -⟩ := List.cons.inj hes
        exact ha ⟨cs, es, by simpa using has.symm⟩
  · exact hb ⟨es, ds, by simpa using hbs.symm⟩

theorem Undotted.break_mem {rest : List Char} (h : Undotted l)
    (heq : l ++ '\n' :: r = as ++ '\'' :: '.' :: rest) : '\n' ∈ as := by
  rcases append_eq_break heq with ⟨es, rfl, hes⟩ | ⟨es, hes, rfl⟩
  · cases es with
    | nil => exact absurd (List.cons.inj hes).1 (by decide)
    | cons e es =>
        obtain ⟨rfl, -⟩ := List.cons.inj hes
        exact absurd ⟨as, es, by simp⟩ h
  · cases es with
    | nil => exact absurd (List.cons.inj hes).1 (by decide)
    | cons e es =>
        obtain ⟨rfl, -⟩ := List.cons.inj hes
        simp

def opening (w : List Char) : List Char := "import \x7b ".toList ++ (w ++ "Controller \x7d from ".toList)

theorem not_mem_opening {x : Char} {w : List Char} (hx : x ∉ opening []) (hw : x ∉ w) : x ∉ opening w := by
  unfold opening at *
  rw [List.nil_append, List.mem_append, not_or] at hx
  exact List.not_mem_append hx.1 (List.not_mem_append hw hx.2)

theorem opening_oneLine {w : List Char} (hw : IsWord w) : '\n' ∉ opening w :=
  not_mem_opening (by decide) (hw.not_mem rfl)

theorem controllerImport?_dotted {p : List Char × List Char} (h : controllerImport? cs = some p) :
    ∃ w rest, cs = opening w ++ '\'' :: '.' :: rest ∧ w ≠ [] ∧ IsWord w := by
  obtain ⟨name, r⟩ := p
  obtain ⟨binding, target, hi⟩ := controllerImport?_inv h
  obtain ⟨w, rfl⟩ := hi.isClass
  have hlength := hi.length
  rw [List.length_append] at hlength
  refine ⟨w, "./Features/".toList ++ (name ++ ("/delivery/controllers/".toList ++
    (target ++ ("';".toList ++ r)))), ?_, ?_, fun c hc => hi.isWord c (List.mem_append_left _ hc)⟩
  · unfold opening
    rw [hi.eq_append]
    simp only [List.append_assoc]
    rfl
  · rintro rfl
    exact absurd hlength (by decide)

/-- An import of a controller shows itself in its first line. -/
theorem controllerImport?_of_undotted (h : Undotted l) (r : List Char) :
    controllerImport? (l ++ '\n' :: r) = none := by
  rw [Option.eq_none_iff_forall_ne_some]
  intro p hp
  obtain ⟨w, rest, heq, -, hw⟩ := controllerImport?_dotted hp
  exact opening_oneLine hw (h.break_mem heq)

theorem controllerImport?_quoted {p : List Char × List Char} (ha : '\'' ∉ as) (hb : Undotted bs)
    (h : controllerImport? (as ++ '\'' :: bs ++ '\n' :: r) = some p) :
    ∃ w, as = opening w ∧ w ≠ [] ∧ IsWord w := by
  obtain ⟨w, rest, heq, hne, hw⟩ := controllerImport?_dotted h
  refine ⟨w, ?_, hne, hw⟩
  rw [List.append_assoc, List.cons_append] at heq
  obtain ⟨es, hes, hopen⟩ := append_eq_break_right heq ha
  cases es with
  | nil => simpa using hopen.symm
  | cons e es =>
      obtain ⟨-, hes⟩ := List.cons.inj hes
      have hbreak := hb.break_mem hes
      exact absurd (by rw [hopen]; simp [hbreak]) (opening_oneLine hw)

theorem Undotted.reads (h : Undotted l) : Reads controllerImport? [l] [] := by
  refine .passText (controllerImport?_of_undotted h) fun as bs hl => controllerImport?_of_undotted ?_
  rintro hbs
  exact h (hbs.trans ⟨as ++ ['\n'], [], by simp [hl]⟩)

theorem not_capital_quote (hn : Feature.IsFolder n) : '\'' ∉ (capitalize n).toList :=
  not_mem_capitalize (by decide) (by decide) hn.noQuote

/-- The entry point gives back a name that it is written for. Besides words these are names over several lines, of
which the last reads like the beginning of an import. -/
def Reprints (n : String) : Prop :=
  IsWord n.toList ∨ ∃ as w, n.toList = as ++ '\n' :: ("import \x7b ".toList ++ w) ∧ w ≠ [] ∧ IsWord w

theorem reads_containerLine (hn : Feature.IsFolder n) : Reads controllerImport? [(containerLine n).toList] [] := by
  refine .passText (fun r => ?_) fun as bs hl => controllerImport?_of_undotted ?_
  · rw [toList_containerLine]
    rfl
  · rw [toList_containerLine] at hl
    obtain ⟨es, hes, -⟩ := append_eq_break_right hl (by decide)
    rcases append_eq_break hes with ⟨ds, hname, rfl⟩ | ⟨ds, hend, -⟩
    · exact .append (fun h => hn.noQuote (by rw [hname]; simp [h])) (by decide +kernel)
    · exact absurd (hend ▸ List.mem_append_right ds List.mem_cons_self) (by decide)

def origin (n : String) : List Char := "../Features/".toList ++ (n.toList ++ ("/delivery/controllers/".toList ++
  (n.toList ++ ".controller';".toList)))

theorem origin_undotted (hn : Feature.IsFolder n) : Undotted (origin n) := by
  unfold origin
  refine .after (by decide +kernel) (by decide) (.append hn.noQuote (.append (by decide) (.append hn.noQuote ?_)))
  decide +kernel

theorem controllerLine_eq (n : String) :
    (controllerLine n).toList = opening (capitalize n).toList ++ '\'' :: origin n := by
  rw [toList_controllerLine, Identifier.controllerClass]
  unfold opening origin
  simp only [String.toList_append, List.append_assoc]
  rfl

theorem opening_inj {v w : List Char} (h : opening v = opening w) : v = w := by
  unfold opening at h
  exact List.append_cancel_right (List.append_cancel_left h)

theorem opening_break {w : List Char} (h : opening w = as ++ '\n' :: bs) :
    ∃ cs ds, w = cs ++ '\n' :: ds ∧ bs = ds ++ "Controller \x7d from ".toList := by
  unfold opening at h
  obtain ⟨es, hes, -⟩ := append_eq_break_right h (by decide)
  rcases append_eq_break hes with ⟨ds, hw, rfl⟩ | ⟨ds, hend, -⟩
  · exact ⟨es, ds, hw, rfl⟩
  · exact absurd (hend ▸ List.mem_append_right ds List.mem_cons_self) (by decide)

theorem reads_controllerLine_none (hn : Feature.IsFolder n) (h : ¬Reprints n) :
    Reads controllerImport? [(controllerLine n).toList] [] := by
  obtain ⟨hword, hlast⟩ := not_or.1 h
  have hquote := not_capital_quote hn
  rw [controllerLine_eq]
  -- an import would bind the whole class if it stood at the start, and the last line of the class after a break
  refine .passText (fun r => ?_) fun as bs hl r => ?_
  · rw [Option.eq_none_iff_forall_ne_some]
    intro p hp
    obtain ⟨w, hw, -, hisWord⟩ := controllerImport?_quoted (not_mem_opening (by decide) hquote) (origin_undotted hn) hp
    exact hword (isWord_of_capitalize (opening_inj hw ▸ hisWord))
  · rcases append_eq_break hl with ⟨es, hopen, rfl⟩ | ⟨es, horigin, -⟩
    · obtain ⟨cs, ds, hcapital, rfl⟩ := opening_break hopen
      rw [Option.eq_none_iff_forall_ne_some]
      intro p hp
      have hfree : '\'' ∉ ds ++ "Controller \x7d from ".toList :=
        List.not_mem_append (fun hm => hquote (by rw [hcapital]; simp [hm])) (by decide)
      obtain ⟨w, hw, hne, hisWord⟩ := controllerImport?_quoted hfree (origin_undotted hn) hp
      have hds : ds = "import \x7b ".toList ++ w := by
        unfold opening at hw
        rw [← List.append_assoc] at hw
        exact List.append_cancel_right hw
      obtain ⟨as, has⟩ := capitalize_break_iff.1 ⟨cs, hcapital⟩
      exact hlast ⟨as, w, by rw [has, hds], hne, hisWord⟩
    · refine controllerImport?_of_undotted (fun hbs => origin_undotted hn (hbs.trans ?_)) r
      cases es with
      | nil => exact absurd (List.cons.inj horigin).1 (by decide)
      | cons e es => exact ⟨es ++ ['\n'], [], by rw [(List.cons.inj horigin).2]; simp⟩

theorem controllerImport?_opening (hn : Feature.IsFolder n) {w : List Char} (hw : IsWord w) (hne : w ≠ [])
    (r : List Char) :
    controllerImport? (opening w ++ '\'' :: origin n ++ '\n' :: r) = some (n.toList, '\n' :: r) := by
  have hbinding : IsWord (w ++ "Controller".toList) := hw.append (by decide)
  have htext : opening w ++ '\'' :: origin n ++ '\n' :: r = "import \x7b ".toList ++
      ((w ++ "Controller".toList) ++ (" \x7d from '../Features/".toList ++ (n.toList ++ '/' ::
        ("delivery/controllers/".toList ++ ((n.toList ++ ".controller".toList) ++
          '\'' :: ';' :: '\n' :: r))))) := by
    unfold opening origin
    simp only [List.append_assoc, List.cons_append]
    rfl
  have hname : ∀ c ∈ n.toList, (c != '/' && c != '\'') = true := by
    intro c hc
    have hslash : c ≠ '/' := fun e => hn.noSlash (e ▸ hc)
    have hquote : c ≠ '\'' := fun e => hn.noQuote (e ▸ hc)
    simp [hslash, hquote]
  have htarget : '\'' ∉ n.toList ++ ".controller".toList := List.not_mem_append hn.noQuote (by decide)
  have hlength : 10 < (w ++ "Controller".toList).length := by
    have hpos := List.length_pos_iff.2 hne
    rw [List.length_append]
    exact Nat.lt_add_of_pos_left hpos
  rw [htext]
  refine controllerImport?_of_some (stripLead?_append _ _) (span_append ?_ rfl) ?_ hlength
    (stripLead?_append _ _) (span_append hname rfl) (by simpa using hn.ne_empty) (stripLead?_append _ _)
    (quoted_append htarget _) (by simp) rfl
  · intro c hc
    rw [hbinding c hc]
    rfl
  · exact List.isSuffixOf_iff_suffix.2 (List.suffix_append _ _)

theorem reads_controllerLine_some (hn : Feature.IsFolder n) (h : Reprints n) :
    Reads controllerImport? [(controllerLine n).toList] [n.toList] := by
  have hfind {w : List Char} (hw : IsWord w) (hne : w ≠ []) :
      Reads controllerImport? [opening w ++ '\'' :: origin n] [n.toList] :=
    .find (m := []) (by simp) (Nat.zero_le _) (controllerImport?_opening hn hw hne)
  rw [controllerLine_eq]
  rcases h with hword | ⟨as, w, hlast, hne, hw⟩
  · exact hfind (capitalize_isWord hword) (by simpa using capitalize_ne_empty hn.ne_empty)
  · obtain ⟨cs, hcapital⟩ := capitalize_break_iff.2 ⟨as, hlast⟩
    have hfree : '\'' ∉ "import \x7b ".toList ++ cs :=
      List.not_mem_append (by decide) fun hm => not_capital_quote hn (by rw [hcapital]; simp [hm])
    have hlines : opening (capitalize n).toList ++ '\'' :: origin n =
        ("import \x7b ".toList ++ cs) ++ '\n' :: (opening w ++ '\'' :: origin n) := by
      rw [hcapital]
      unfold opening
      simp only [List.append_assoc, List.cons_append]
    rw [hlines, Reads.break_iff]
    exact (Undotted.of_noQuote hfree).reads.append (hfind hw hne)

open Classical in
theorem reads_controllerLines {ns : List String} (hn : ∀ n ∈ ns, Feature.IsFolder n) :
    Reads controllerImport? ((ns.map controllerLine).map String.toList)
      ((ns.filter fun n => Reprints n).map String.toList) := by
  induction ns with
  | nil => exact .nil
  | cons n ns ih =>
      have hrest := ih fun m hm => hn m (List.mem_cons_of_mem n hm)
      by_cases h : Reprints n
      · rw [List.filter_cons_of_pos (by simpa using h)]
        exact (reads_controllerLine_some (hn n List.mem_cons_self) h).append hrest
      · rw [List.filter_cons_of_neg (by simpa using h)]
        exact (reads_controllerLine_none (hn n List.mem_cons_self) h).append hrest

theorem controller_undotted (hn : Feature.IsFolder n) (sample : String) :
    ∀ l ∈ Module.lines (controller (WiringSheet.wired .standard (n, sample))), Undotted l.toList := by
  have hvariable : '\'' ∉ (Identifier.controllerVariable n).toList := not_mem_concat hn.noQuote (by decide)
  have hclass : '\'' ∉ (Identifier.controllerClass n).toList := not_mem_concat (not_capital_quote hn) (by decide)
  intro l hl
  simp [controller, WiringSheet.wired, Module.lines, Statement.lines, Declaration.lines, Keyword.text] at hl
  rcases hl with rfl | rfl
  · exact .of_noQuote (not_mem_concat (not_mem_concat (by decide) hvariable)
      (not_mem_concat (not_mem_concat (by decide) hclass) (by decide)))
  · have hmount : ("app.use('" ++ Settings.standard.route n ++ "', " ++ Identifier.controllerVariable n ++
        ".getRouter());").toList = "app.use('/api/".toList ++ (n.toList ++ ("', ".toList ++
          (Identifier.controllerVariable n ++ ".getRouter());").toList)) := by
      rw [Settings.route]
      simp only [String.toList_append, List.append_assoc]
      rfl
    change Undotted ("app.use('" ++ Settings.standard.route n ++ "', " ++ Identifier.controllerVariable n ++
      ".getRouter());").toList
    rw [hmount]
    refine .after (by decide +kernel) (by decide) (.append hn.noQuote (.after (by decide +kernel) (by decide) ?_))
    exact .of_noQuote (not_mem_concat hvariable (by decide))

theorem body_undotted {r : Registry} (hr : ∀ n ∈ r.names, Feature.IsFolder n) :
    ∀ l ∈ Module.lines (body (.ofRegistry r .standard)), Undotted l.toList := by
  intro l hl
  have hport : (WiringSheet.ofRegistry r .standard).port = Number.intText 3000 := rfl
  simp only [body, Module.lines, List.flatMap_append, List.mem_append, hport] at hl
  rcases hl with (hl | hl) | hl
  · revert l
    decide +kernel
  · simp only [WiringSheet.ofRegistry, List.flatMap_map, List.mem_flatMap] at hl
    obtain ⟨st, ⟨f, hf, hst⟩, hl⟩ := hl
    exact controller_undotted (hr _ (List.mem_map_of_mem hf)) f.2 l (List.mem_flatMap.2 ⟨st, hst, hl⟩)
  · revert l
    decide +kernel

open Classical in
/-- Of the names that the entry point is written for, it gives back those that are reprinted. -/
theorem names_render_folders {r : Registry} (hr : ∀ n ∈ r.names, Feature.IsFolder n) (hnodup : r.names.Nodup) :
    names (render r .standard).content = r.names.filter fun n => Reprints n := by
  have hframe := (Silent.reads frame_silent).1
  have hcontainers : Reads controllerImport? ((r.names.map containerLine).map String.toList) [] := by
    refine Reads.none fun l hl => ?_
    rw [List.map_map] at hl
    obtain ⟨n, hn, rfl⟩ := List.mem_map.1 hl
    exact reads_containerLine (hr n hn)
  have hbody : Reads controllerImport? ((Module.lines (body (.ofRegistry r .standard))).map String.toList) [] := by
    refine Reads.none fun l hl => ?_
    obtain ⟨t, ht, rfl⟩ := List.mem_map.1 hl
    exact (body_undotted hr t ht).reads
  have hreads := ((hframe.append hcontainers).append (reads_controllerLines hr)).append hbody
  simp only [← List.map_append, ← module_lines, List.nil_append, List.append_nil] at hreads
  have htext : (render r .standard).content.toList =
      unlines ((Module.lines (module (.ofRegistry r .standard))).map String.toList) := toList_linesText _
  have hkeys {ns : List String} : Keyed.keys (ns.map fun n => (n, ())) = ns := by
    simp [Keyed.keys, Function.comp_def]
  have hmap {ns : List String} : ns.map ((fun n => (String.ofList n, ())) ∘ String.toList) = ns.map (·, ()) := by
    simp
  rw [names, htext, hreads.scan_eq rfl, List.map_map, hmap,
    Keyed.ofPairs_of_nodup (hkeys.symm ▸ hnodup.filter _), hkeys]

end EntryPoint

end ApiScaffold
