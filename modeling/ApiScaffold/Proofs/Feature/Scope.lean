import ApiScaffold.Proofs.Feature.Sources
import ApiScaffold.Proofs.TypeScript.Balance

namespace ApiScaffold

open TypeScript

/-- What is shown of a field closes what it opens. -/
structure FieldSheet.IsScoped (x : FieldSheet) : Prop where
  readable : x.IsReadable
  name : ∀ c ∈ x.name.toList, isBare c = true
  staticType : AllSmooth x.staticType
  schemaExpression : AllSmooth x.schemaExpression

structure FeatureSheet.IsScoped (s : FeatureSheet) : Prop where
  readable : s.IsReadable
  fields : ∀ x ∈ s.fields, x.IsScoped
  validatorSchema : Goes ⟨.code, 0⟩ s.validatorSchema ⟨.code, 0⟩
  sample : ∀ n, Goes ⟨.code, n⟩ s.sample ⟨.start, n⟩
  route : ∀ n, Goes ⟨.quoted '\'', n⟩ s.route ⟨.quoted '\'', n⟩
  article : AllSmooth s.article
  testId : AllSmooth s.testId

namespace FeatureModule

variable {s : FeatureSheet} {x : FieldSheet} {object : String} {n : Nat}

theorem line_typed (h : x.IsScoped) : Line (n + 1) (x.key ++ ": " ++ x.staticType ++ ";") (n + 1) := by
  have hlist : (x.key ++ ": " ++ x.staticType ++ ";" ++ "\n").toList =
      (Identifier.key x.name).toList ++ ':' :: (" " ++ x.staticType ++ ";\n").toList := by
    simp [h.readable.key]
  have hrest : Goes ⟨.code, n + 1⟩ (" " ++ x.staticType ++ ";\n") ⟨.start, n + 1⟩ :=
    ((Goes.last rfl).append (.smooth rfl h.staticType)).append (.last rfl)
  rw [Line, Goes, hlist, Identifier.deep_key]
  exact hrest

theorem line_schema (h : x.IsScoped) :
    Line (n + 1) (x.key ++ ": " ++ braces ("type: " ++ x.schemaExpression ++ ", required: true") ++ ",") (n + 1) := by
  have hlist : (x.key ++ ": " ++ braces ("type: " ++ x.schemaExpression ++ ", required: true") ++ "," ++ "\n").toList =
      (Identifier.key x.name).toList ++ ':' ::
        (" \x7b type: " ++ x.schemaExpression ++ ", required: true \x7d,\n").toList := by
    simp [h.readable.key, braces]
  have hrest : Goes ⟨.code, n + 1⟩ (" \x7b type: " ++ x.schemaExpression ++ ", required: true \x7d,\n")
      ⟨.start, n + 1⟩ :=
    ((Goes.last (q := ⟨.code, n + 2⟩) rfl).append (.smooth rfl h.schemaExpression)).append (.last rfl)
  rw [Line, Goes, hlist, Identifier.deep_key]
  exact hrest

theorem line_parameter (h : x.IsScoped) :
    Line (n + 1) ("public " ++ x.name ++ ": " ++ x.staticType ++ ",") (n + 1) := by
  have hlist : ("public " ++ x.name ++ ": " ++ x.staticType ++ "," ++ "\n").toList =
      "public ".toList ++ (x.name.toList ++ ':' :: (" " ++ x.staticType ++ ",\n").toList) := by
    simp
  -- The name is written as it is, and a brace in it would open a block or close one.
  have hopen : Goes ⟨.start, n + 1⟩ "public " ⟨.code, n + 1⟩ := .last rfl
  have hname (ds : List Char) : Reader.after? ⟨.code, n + 1⟩ (x.name.toList ++ ':' :: ds) =
      Reader.after? ⟨.code, n + 1⟩ ds := after?_bare rfl h.name (by simp) ds
  have hrest : Goes ⟨.code, n + 1⟩ (" " ++ x.staticType ++ ",\n") ⟨.start, n + 1⟩ :=
    ((Goes.last rfl).append (.smooth rfl h.staticType)).append (.last rfl)
  rw [Line, Goes, hlist, Reader.after?_append, hopen, Option.bind_some, hname]
  exact hrest

theorem line_expected (h : x.IsScoped) : Line (n + 1) (x.key ++ ": dto" ++ x.member ++ ",") (n + 1) := by
  have hlist : (x.key ++ ": dto" ++ x.member ++ "," ++ "\n").toList =
      (Identifier.key x.name).toList ++ ':' ::
        (" dto".toList ++ ((Identifier.member x.name).toList ++ [',', '\n'])) := by
    simp [h.readable.key, h.readable.member]
  have hdto : Goes ⟨.code, n + 1⟩ " dto" ⟨.code, n + 1⟩ := .last rfl
  rw [Line, Goes, hlist, Identifier.deep_key, Reader.after?_append, hdto, Option.bind_some,
    Identifier.deep_member _ (.inl rfl)]
  rfl

theorem line_access (ho : IsBinding object) (h : x.IsScoped) : Line (n + 1) (object ++ x.member ++ ",") (n + 1) := by
  obtain ⟨c, hc, cs, hmember⟩ := Identifier.toList_member x.name
  have hlist : (object ++ x.member ++ "," ++ "\n").toList = object.toList ++ c :: (cs ++ [',', '\n']) := by
    simp [h.readable.member, hmember]
  have hbare : ∀ d ∈ object.toList, isBare d = true := fun d hd => isBare_part (ho.parts d hd)
  have hcode (ds : List Char) : Reader.after? ⟨.code, n + 1⟩ (c :: ds) = Reader.after? ⟨.code, n + 1⟩ ds :=
    after?_bare rfl (List.forall_mem_nil _) hc ds
  have hrest := Identifier.deep_member (n := n) x.name (.inl rfl : ',' = ',' ∨ ',' = ')') ['\n']
  rw [hmember, List.cons_append, hcode] at hrest
  rw [Line, Goes, hlist, after?_bare rfl hbare hc, hrest]
  rfl

theorem line_id (ho : IsBinding object) : Line (n + 1) (object ++ "Doc.id,") (n + 1) := by
  have hlist : (object ++ "Doc.id," ++ "\n").toList = (object ++ "Doc").toList ++ '.' :: "id,\n".toList := by simp
  have hdoc : IsBinding (object ++ "Doc") := ho.append (by decide)
  have hbare : ∀ d ∈ (object ++ "Doc").toList, isBare d = true := fun d hd => isBare_part (hdoc.parts d hd)
  rw [Line, Goes, hlist, after?_bare rfl hbare (by simp)]
  rfl

theorem deep_arguments {xs : List FieldSheet} (h : ∀ x ∈ xs, x.IsScoped) (ds : List Char) :
    Reader.after? ⟨.code, n + 1⟩ ((", ".intercalate (xs.map fun x => "dto" ++ x.member)).toList ++ ')' :: ds) =
      Reader.after? ⟨.code, n + 1⟩ ds := by
  have hdto : Goes ⟨.code, n + 1⟩ "dto" ⟨.code, n + 1⟩ := .last rfl
  induction xs with
  | nil => rfl
  | cons x xs ih =>
      have hx := (h x (by simp)).readable.member
      cases xs with
      | nil =>
          rw [List.map_singleton, String.intercalate_singleton, String.toList_append, List.append_assoc, hx,
            Reader.after?_append, hdto, Option.bind_some, Identifier.deep_member _ (.inr rfl)]
      | cons y ys =>
          have hrest := ih fun z hz => h z (List.mem_cons_of_mem _ hz)
          have hlist : (", ".intercalate ((x :: y :: ys).map fun x => "dto" ++ x.member)).toList ++ ')' :: ds =
              "dto".toList ++ ((Identifier.member x.name).toList ++ ',' :: ' ' ::
                ((", ".intercalate ((y :: ys).map fun x => "dto" ++ x.member)).toList ++ ')' :: ds)) := by
            rw [List.map_cons, List.map_cons, String.intercalate_cons_cons, hx]
            simp
          rw [hlist, Reader.after?_append, hdto, Option.bind_some, Identifier.deep_member _ (.inl rfl), ← hrest]
          rfl

theorem line_builtEntity (h : s.IsScoped) : Line (n + 1) (builtEntity s) (n + 1) := by
  have hlist : (builtEntity s ++ "\n").toList =
      ("const " ++ s.name ++ " = new " ++ s.className ++ "('" ++ s.testId ++ "', ").toList ++
        ((", ".intercalate (s.fields.map fun x => "dto" ++ x.member)).toList ++ ')' :: [';', '\n']) := by
    simp [FeatureDocument.builtEntity_eq]
  have hopen : Goes ⟨.start, n + 1⟩ ("const " ++ s.name ++ " = new " ++ s.className ++ "('" ++ s.testId ++ "', ")
      ⟨.code, n + 1⟩ :=
    ((((((Goes.last (q := ⟨.code, n + 1⟩) rfl).append (.smooth rfl h.readable.name.allSmooth)).append
      (.last rfl)).append (.smooth rfl h.readable.className.allSmooth)).append
        (.last (q := ⟨.quoted '\'', n + 1⟩) rfl)).append (.smooth rfl h.testId)).append (.last rfl)
  rw [Line, Goes, hlist, Reader.after?_append, hopen, Option.bind_some, deep_arguments h.fields]
  rfl

theorem stays_fields {line : FieldSheet → String} (h : s.IsScoped)
    (hl : ∀ x : FieldSheet, x.IsScoped → Line n (line x) n) : Stays n (s.fields.map line) :=
  .map fun x hx => hl x (h.fields x hx)

theorem scoped_declaring (h : s.IsScoped) (d : FeatureDocument) {dec : Declaration}
    (hd : .declaring dec ∈ d.module s) : dec.IsScoped := by
  have hname := h.readable.name
  have hclass := h.readable.className
  have huse := h.readable.useCase
  have hnameSmooth := hname.allSmooth
  have hclassSmooth := hclass.allSmooth
  have huseSmooth := huse.allSmooth
  have hbrace : EndsName ("" ++ " \x7b") := ⟨' ', rfl, rfl⟩
  have hid : Line 3 (s.name ++ "Doc.id,") 3 := line_id hname
  have htyped : Stays 1 (typedMembers s) := stays_fields h fun x => line_typed
  have hdto : Stays 2 (accesses "dto" s) := stays_fields h fun x => line_access (by decide)
  have hdoc : Stays 3 (accesses (s.name ++ "Doc") s) :=
    stays_fields h fun x => line_access (hname.append (by decide))
  have hparameters := stays_fields (n := 1) h fun x => line_parameter
  have hmembers := stays_fields (n := 1) h fun x => line_schema
  unfold braces at hmembers
  cases d <;>
    simp only [FeatureDocument.module, container, entity, repositoryInterface, useCase, model, dataSource,
      repository, middleware, controller, useCaseTest, controllerTest, FeatureDocument.promised_eq,
      FeatureDocument.promisedOrNull_eq, guarded, noBody, braces, Declaration.block, toString, List.mem_cons,
      reduceCtorEq, Statement.declaring.injEq, List.not_mem_nil, false_or, or_false, or_self] at hd
  all_goals rcases hd with rfl | rfl | rfl
  all_goals first
    | with_reducible apply Declaration.isScoped_opened
    | with_reducible apply Declaration.isScoped_line
  -- What is left are lines at known depths: each is cut at what is shown of the feature, and literals are run.
  all_goals repeat' first
    | with_reducible assumption
    | with_reducible exact Stays.nil _
    | with_reducible apply Stays.append
    | with_reducible apply Stays.cons
    | with_reducible apply Stays.indent
    | with_reducible apply Stays.block
    | with_reducible apply Stays.chain
    | with_reducible unfold Line
    | with_reducible apply Goes.append
    | with_reducible exact .smooth (by decide +kernel) (by assumption)
    | with_reducible exact .last (by decide +kernel)
    | with_reducible exact .literal (by decide +kernel)
    | with_reducible exact .of_eq h.validatorSchema (by decide +kernel)
    | with_reducible apply IsBinding.append
    | with_reducible exact IsBinding.literal (by decide +kernel)
    | with_reducible exact EndsName.literal (by decide +kernel)
    | with_reducible apply EndsName.append

theorem scoped_running (h : s.IsScoped) (d : FeatureDocument) {ls : List String}
    (hd : .running ls ∈ d.module s) : Binds [] (linesText ls) := by
  have hname := h.readable.name
  have hclass := h.readable.className
  have huse := h.readable.useCase
  have hnameSmooth := hname.allSmooth
  have hclassSmooth := hclass.allSmooth
  have huseSmooth := huse.allSmooth
  have harticle := h.article
  have htest := h.testId
  have hbuilt : Line 2 (builtEntity s) 2 := line_builtEntity h
  have hexpected := stays_fields (n := 3) h fun x => line_expected
  have hregister {t : String} (ht : "container.".toList <+: t.toList) (hg : Goes ⟨.code, 0⟩ t ⟨.start, 0⟩) :
      Binds [] t := .running ht rfl (fun _ => rfl) hg
  cases d <;>
    simp only [FeatureDocument.module, container, entity, repositoryInterface, useCase, model, dataSource,
      repository, middleware, controller, useCaseTest, controllerTest, testCase, posted, badRequestCase, noBody,
      toString, List.mem_cons, reduceCtorEq, Statement.running.injEq, List.not_mem_nil, false_or,
      or_false, or_self] at hd
  all_goals subst hd
  case' useCaseTest => refine .block (w := "describe(".toList) ?_ rfl (fun _ => rfl) ?_ ?_ ?_
  case' controllerTest => refine .block (w := "describe(".toList) ?_ rfl (fun _ => rfl) ?_ ?_ ?_
  all_goals repeat' first
    | with_reducible assumption
    | with_reducible exact Binds.lines_nil
    | with_reducible apply Binds.lines_cons
    | with_reducible apply hregister
    | with_reducible exact Stays.nil _
    | with_reducible apply Stays.append
    | with_reducible apply Stays.cons
    | with_reducible apply Stays.indent
    | with_reducible apply Stays.block
    | with_reducible apply Stays.chain
    | with_reducible apply Stays.call
    | with_reducible apply Stays.ite
    | with_reducible unfold Line
    | with_reducible apply Goes.append
    | with_reducible exact .smooth (by decide +kernel) (by assumption)
    | with_reducible exact .last (by decide +kernel)
    | with_reducible exact .literal (by decide +kernel)
    | with_reducible exact .of_eq (h.sample 2) (by decide +kernel)
    | with_reducible exact .of_eq (h.route 2) (by decide +kernel)
    | with_reducible apply prefix_append
    | decide +kernel

theorem isScoped (h : s.IsScoped) (d : FeatureDocument) : ∀ st ∈ d.module s, st.IsScoped := by
  intro st hst
  have hreadable := FeatureModule.isReadable h.readable d st hst
  cases st with
  | importing i => exact hreadable
  | declaring dec => exact scoped_declaring h d hst
  | exporting ns => exact hreadable.1
  | running ls => exact scoped_running h d hst
  | gap => trivial

end FeatureModule

theorem FieldKind.allSmooth_staticType (k : FieldKind) : AllSmooth k.staticType := by
  cases k <;> exact .literal (by decide)

theorem FieldKind.allSmooth_schemaExpression (k : FieldKind) : AllSmooth k.schemaExpression := by
  cases k <;> exact .literal (by decide)

namespace Mapping

variable {m : Mapping} {ms : List Mapping}

theorem line_schemaLine (hm : ∃ f, ofField f = .ok m) :
    Line 1 ("  " ++ m.key ++ ": " ++ m.validator.text ++ ",") 1 := by
  obtain ⟨f, hf⟩ := hm
  obtain ⟨-, -, -, -, hvalidator⟩ := ofField_ok hf
  have hline : "  " ++ m.key ++ ": " ++ m.validator.text ++ "," =
      "  " ++ (m.key ++ ": " ++ m.validator.text ++ ",") := by
    simp only [String.append_assoc]
  have hlist : (m.key ++ ": " ++ m.validator.text ++ "," ++ "\n").toList =
      (Identifier.key m.name).toList ++ ':' :: (" " ++ m.validator.text ++ ",\n").toList := by
    simp [key]
  have hrest : Goes ⟨.code, 1⟩ (" " ++ m.validator.text ++ ",\n") ⟨.start, 1⟩ := by
    rw [hvalidator]
    exact ((Goes.last rfl).append (m.rule.goes_compile _ 1)).append (.last rfl)
  rw [hline]
  refine Line.indent ?_
  rw [Line, Goes, hlist, Identifier.deep_key]
  exact hrest

theorem goes_schema (h : ∀ m ∈ ms, ∃ f, ofField f = .ok m) : Goes ⟨.code, 0⟩ (schema "  " ms) ⟨.code, 0⟩ := by
  have hlines : Stays 1 (ms.map fun m => "  " ++ m.key ++ ": " ++ m.validator.text ++ ",") :=
    .map fun m hm => line_schemaLine (h m hm)
  have hopen : Goes ⟨.code, 0⟩ "z.object(\x7b" ⟨.code, 1⟩ := .last rfl
  have hbreak : Goes ⟨.code, 1⟩ "\n" ⟨.start, 1⟩ := .last rfl
  have hclose : Goes ⟨.start, 1⟩ "\x7d)" ⟨.code, 0⟩ := .last rfl
  rw [FeatureDocument.schema_eq, Text.linesText_cons]
  exact ((hopen.append hbreak).append hlines.goes).append hclose

end Mapping

theorem TypeScript.isMark_bare {c : Char} (h : isBare c = true) : isMark c = false := by
  simp only [isBare, Bool.and_eq_true, Bool.not_eq_true'] at h
  exact h.1.1

namespace Feature

variable {f : Feature} {s : Settings}

/-- Neither a quotation mark nor a brace is in the name of a field. -/
def HasBareFields (f : Feature) : Prop := ∀ x ∈ f.fields, ∀ c ∈ x.name.toList, isBare c = true

instance (f : Feature) : Decidable f.HasBareFields :=
  haveI (x : Field) := List.decidableBAll (fun c => isBare c = true) x.name.toList
  List.decidableBAll (fun x : Field => ∀ c ∈ x.name.toList, isBare c = true) f.fields

theorem HasBareFields.hasPlainFields (h : f.HasBareFields) : f.HasPlainFields :=
  fun x hx c hc => isMark_bare (h x hx c hc)

theorem isScoped_sheet (hmaps : f.Maps) (hn : IsIdentifier f.name) (hfields : f.HasBareFields)
    (hs : IsQuotable s.apiPrefix) : (f.sheet s).IsScoped where
  readable := isReadable_sheet hmaps hn hfields.hasPlainFields hs
  fields := List.forall_mem_map.2 fun m hm => by
    obtain ⟨x, hx, hfield⟩ := exists_of_mem_mappings hmaps hm
    obtain ⟨-, -, rfl, -⟩ := Mapping.ofField_ok hfield
    have hbare : ∀ c ∈ m.name.toList, isBare c = true := hfields _ hx
    exact ⟨FieldSheet.isReadable_ofMapping fun c hc => isMark_bare (hbare c hc), hbare,
      FieldKind.allSmooth_staticType _, FieldKind.allSmooth_schemaExpression _⟩
  validatorSchema := Mapping.goes_schema fun m hm => by
    obtain ⟨x, -, hfield⟩ := exists_of_mem_mappings hmaps hm
    exact ⟨x, hfield⟩
  sample := Mapping.goes_sampleJson _
  route := fun n => (hs.goes_slash n).append (.smooth rfl hn.isBinding.allSmooth)
  article := by
    have harticle : AllSmooth (Text.article f.name.toList) := by
      rcases Text.article_cases f.name.toList with he | he <;> rw [he] <;> exact .literal (by decide)
    exact (harticle.append (.literal (by decide))).append hn.isBinding.allSmooth
  testId := .literal (by decide)

end Feature

end ApiScaffold
