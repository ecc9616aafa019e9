import ApiScaffold.Proofs.Field.Sample
import ApiScaffold.Proofs.Project.Emission
import ApiScaffold.Proofs.TypeScript.Quiet

namespace ApiScaffold

open TypeScript

structure FieldSheet.IsReadable (x : FieldSheet) : Prop where
  name : ∀ c ∈ x.name.toList, isMark c = false
  key : x.key = Identifier.key x.name
  member : x.member = Identifier.member x.name
  staticType : AllInert x.staticType
  schemaExpression : AllInert x.schemaExpression

structure FeatureSheet.IsReadable (s : FeatureSheet) : Prop where
  name : IsBinding s.name
  className : IsBinding s.className
  useCase : IsBinding s.useCase
  fields : ∀ x ∈ s.fields, x.IsReadable
  validatorSchema : Passes .code s.validatorSchema .code
  sample : Passes .code s.sample .start
  route : Passes (.quoted '\'') s.route (.quoted '\'')
  article : AllInert s.article
  testId : AllInert s.testId

namespace FeatureModule

variable {s : FeatureSheet} {x : FieldSheet} {object : String}

theorem quiet_typed (h : x.IsReadable) : Quiet (x.key ++ ": " ++ x.staticType ++ ";") := by
  have hlist : (x.key ++ ": " ++ x.staticType ++ ";" ++ "\n").toList =
      (Identifier.key x.name).toList ++ ':' :: (" " ++ x.staticType ++ ";\n").toList := by
    simp [h.key]
  have hrest : Passes .code (" " ++ x.staticType ++ ";\n") .start :=
    ((Passes.literal .code (by decide)).append (.of_inert h.staticType Spot.isInner_code)).append
      (.literal .start (by decide))
  rw [Quiet, Passes, hlist, Identifier.after?_key]
  exact hrest

theorem quiet_schema (h : x.IsReadable) :
    Quiet (x.key ++ ": " ++ braces ("type: " ++ x.schemaExpression ++ ", required: true") ++ ",") := by
  have hlist : (x.key ++ ": " ++ braces ("type: " ++ x.schemaExpression ++ ", required: true") ++ "," ++ "\n").toList =
      (Identifier.key x.name).toList ++ ':' ::
        (" \x7b type: " ++ x.schemaExpression ++ ", required: true \x7d,\n").toList := by
    simp [h.key, braces]
  have hrest : Passes .code (" \x7b type: " ++ x.schemaExpression ++ ", required: true \x7d,\n") .start :=
    ((Passes.literal .code (by decide)).append (.of_inert h.schemaExpression Spot.isInner_code)).append
      (.literal .start (by decide))
  rw [Quiet, Passes, hlist, Identifier.after?_key]
  exact hrest

theorem quiet_parameter (h : x.IsReadable) : Quiet ("public " ++ x.name ++ ": " ++ x.staticType ++ ",") := by
  have hlist : ("public " ++ x.name ++ ": " ++ x.staticType ++ "," ++ "\n").toList =
      "public ".toList ++ (x.name.toList ++ ':' :: (" " ++ x.staticType ++ ",\n").toList) := by
    simp
  -- The name is written as it is, and a mark in it would open a literal.
  have hopen : Spot.start.after? "public ".toList = some .code := by decide
  have hname (ds : List Char) : Spot.code.after? (x.name.toList ++ ':' :: ds) = Spot.code.after? ds :=
    Spot.IsBare.after?_append (k := .code) trivial h.name (by simp) ds
  have hrest : Passes .code (" " ++ x.staticType ++ ",\n") .start :=
    ((Passes.literal .code (by decide)).append (.of_inert h.staticType Spot.isInner_code)).append
      (.literal .start (by decide))
  rw [Quiet, Passes, hlist, Spot.after?_append, hopen, Option.bind_some, hname]
  exact hrest

theorem quiet_expected (h : x.IsReadable) : Quiet (x.key ++ ": dto" ++ x.member ++ ",") := by
  have hlist : (x.key ++ ": dto" ++ x.member ++ "," ++ "\n").toList =
      (Identifier.key x.name).toList ++ ':' ::
        (" dto".toList ++ ((Identifier.member x.name).toList ++ [',', '\n'])) := by
    simp [h.key, h.member]
  have hdto : Spot.code.after? " dto".toList = some .code := by decide
  rw [Quiet, Passes, hlist, Identifier.after?_key, Spot.after?_append, hdto, Option.bind_some,
    Identifier.after?_member _ (.inl rfl)]
  rfl

theorem quiet_access (ho : IsBinding object) (h : x.IsReadable) : Quiet (object ++ x.member ++ ",") := by
  obtain ⟨c, hc, cs, hmember⟩ := Identifier.toList_member x.name
  have hlist : (object ++ x.member ++ "," ++ "\n").toList = object.toList ++ c :: (cs ++ [',', '\n']) := by
    simp [h.member, hmember]
  have hmarks : ∀ d ∈ object.toList, isMark d = false := fun d hd => Identifier.isMark_part (ho.parts d hd)
  have hcode (ds : List Char) : Spot.code.after? (c :: ds) = Spot.code.after? ds :=
    Spot.IsBare.after?_append (k := .code) trivial (List.forall_mem_nil _) hc ds
  have hrest := Identifier.after?_member x.name (.inl rfl : ',' = ',' ∨ ',' = ')') ['\n']
  rw [hmember, List.cons_append, hcode] at hrest
  rw [Quiet, Passes, hlist, Spot.IsBare.after?_append (k := .start) trivial hmarks hc, hrest]
  rfl

theorem quiet_id (ho : IsBinding object) : Quiet (object ++ "Doc.id,") := by
  have hlist : (object ++ "Doc.id," ++ "\n").toList = (object ++ "Doc").toList ++ '.' :: "id,\n".toList := by simp
  have hdoc : IsBinding (object ++ "Doc") := ho.append (by decide)
  have hmarks : ∀ d ∈ (object ++ "Doc").toList, isMark d = false :=
    fun d hd => Identifier.isMark_part (hdoc.parts d hd)
  rw [Quiet, Passes, hlist, Spot.IsBare.after?_append (k := .start) trivial hmarks (by simp)]
  decide

theorem after?_arguments {xs : List FieldSheet} (h : ∀ x ∈ xs, x.IsReadable) (ds : List Char) :
    Spot.code.after? ((", ".intercalate (xs.map fun x => "dto" ++ x.member)).toList ++ ')' :: ds) =
      Spot.code.after? ds := by
  have hdto : Spot.code.after? "dto".toList = some .code := by decide
  induction xs with
  | nil => rfl
  | cons x xs ih =>
      have hx := (h x (by simp)).member
      cases xs with
      | nil =>
          rw [List.map_singleton, String.intercalate_singleton, String.toList_append, List.append_assoc, hx,
            Spot.after?_append, hdto, Option.bind_some, Identifier.after?_member _ (.inr rfl)]
      | cons y ys =>
          have hrest := ih fun z hz => h z (List.mem_cons_of_mem _ hz)
          have hlist : (", ".intercalate ((x :: y :: ys).map fun x => "dto" ++ x.member)).toList ++ ')' :: ds =
              "dto".toList ++ ((Identifier.member x.name).toList ++ ',' :: ' ' ::
                ((", ".intercalate ((y :: ys).map fun x => "dto" ++ x.member)).toList ++ ')' :: ds)) := by
            rw [List.map_cons, List.map_cons, String.intercalate_cons_cons, hx]
            simp
          rw [hlist, Spot.after?_append, hdto, Option.bind_some, Identifier.after?_member _ (.inl rfl), ← hrest]
          rfl

theorem quiet_builtEntity (h : s.IsReadable) : Quiet (builtEntity s) := by
  have hlist : (builtEntity s ++ "\n").toList =
      ("const " ++ s.name ++ " = new " ++ s.className ++ "('" ++ s.testId ++ "', ").toList ++
        ((", ".intercalate (s.fields.map fun x => "dto" ++ x.member)).toList ++ ')' :: [';', '\n']) := by
    simp [FeatureDocument.builtEntity_eq]
  have hopen : Passes .start ("const " ++ s.name ++ " = new " ++ s.className ++ "('" ++ s.testId ++ "', ") .code :=
    ((((((Passes.literal .code (by decide)).append (h.name.passes Spot.isInner_code)).append
      (.literal .code (by decide))).append (h.className.passes Spot.isInner_code)).append
        (.literal (.quoted '\'') (by decide))).append (.of_inert h.testId Spot.isInner_quoted)).append
          (.literal .code (by decide))
  rw [Quiet, Passes, hlist, Spot.after?_append, hopen, Option.bind_some, after?_arguments h.fields]
  rfl

theorem allQuiet_fields {line : FieldSheet → String} (h : s.IsReadable)
    (hl : ∀ x : FieldSheet, x.IsReadable → Quiet (line x)) : AllQuiet (s.fields.map line) := by
  intro l hm
  obtain ⟨x, hx, rfl⟩ := List.mem_map.1 hm
  exact hl x (h.fields x hx)

@[simp] theorem allQuiet_ite {p : Prop} [Decidable p] {ls : List String} :
    AllQuiet (if p then ls else []) ↔ (p → AllQuiet ls) := by
  split
  next h => simp [h]
  next h => simp [h, allQuiet_nil]

theorem isReadable (h : s.IsReadable) (d : FeatureDocument) : (d.module s).IsReadable := by
  have hname := h.name
  have hclass := h.className
  have huse := h.useCase
  have hnameCode := h.name.passes Spot.isInner_code
  have hclassCode := h.className.passes Spot.isInner_code
  have huseCode := h.useCase.passes Spot.isInner_code
  have hnameQuoted := h.name.passes Spot.isInner_quoted
  have hclassQuoted := h.className.passes Spot.isInner_quoted
  have huseQuoted := h.useCase.passes Spot.isInner_quoted
  have hnameInert := h.name.allInert
  have hsample := h.sample
  have hroute := h.route
  have hschema := h.validatorSchema
  have harticle : Passes (.quoted '\'') s.article (.quoted '\'') := .of_inert h.article Spot.isInner_quoted
  have htest : Passes (.quoted '\'') s.testId (.quoted '\'') := .of_inert h.testId Spot.isInner_quoted
  have hid := quiet_id h.name
  have hbuilt := quiet_builtEntity h
  have htyped : AllQuiet (typedMembers s) := allQuiet_fields h fun x => quiet_typed
  have hdto : AllQuiet (accesses "dto" s) := allQuiet_fields h fun x => quiet_access (by decide)
  have hdoc : AllQuiet (accesses (s.name ++ "Doc") s) :=
    allQuiet_fields h fun x => quiet_access (h.name.append (by decide))
  have hparameters := allQuiet_fields h fun x => quiet_parameter
  have hmembers := allQuiet_fields h fun x => quiet_schema
  have hexpected := allQuiet_fields h fun x => quiet_expected
  unfold braces at hmembers
  cases d <;>
    simp [FeatureDocument.module, FeatureModule.container, entity, repositoryInterface, useCase, model, dataSource,
      repository, middleware, controller, useCaseTest, controllerTest, FeatureDocument.promised_eq,
      FeatureDocument.promisedOrNull_eq, guarded, testCase, posted, badRequestCase, noBody, resultSource, errorSource,
      Import.named, Import.effects, Import.default, Import.bound, Declaration.lines, Declaration.block, Keyword.text,
      braces, toString, htyped, hdto, hdoc, hparameters, hmembers, hexpected, hbuilt, hid]
  all_goals unfold Quiet
  -- What is left is a conjunction over the lines: each is cut at what is shown of the feature, and literals are run.
  all_goals repeat' first
    | with_reducible apply And.intro
    | with_reducible assumption
    | with_reducible intro hreq
    | with_reducible apply Passes.append
    | with_reducible apply IsBinding.append
    | with_reducible apply AllInert.append
    | with_reducible exact .literal .code (by decide +kernel)
    | with_reducible exact .literal .start (by decide +kernel)
    | with_reducible exact .literal (.quoted '\'') (by decide +kernel)
    | with_reducible exact IsBinding.literal (by decide +kernel)
    | with_reducible exact AllInert.literal (by decide +kernel)
    | with_reducible apply EndsName.append
    | with_reducible exact EndsName.literal (by decide +kernel)

end FeatureModule

namespace Feature.IsIdentifier

variable {n : String}

theorem isBinding (h : IsIdentifier n) : IsBinding n := ⟨h.isName.ne_empty, h.parts⟩

theorem capitalize (h : IsIdentifier n) : IsBinding (Text.capitalize n) := by
  obtain ⟨c, hc, hstart⟩ := h.start
  obtain ⟨cs, hn⟩ : ∃ cs, n.toList = c :: cs := List.head?_eq_some_iff.1 hc
  have hcapital := Text.toList_capitalize hn hstart
  have hupper : Identifier.isPart c.toUpper = true :=
    Text.forall_ascii (P := fun c => Identifier.isStart c → Identifier.isPart c.toUpper) (by decide +kernel)
      (Text.start_lt hstart) hstart
  constructor
  · intro he
    rw [he] at hcapital
    cases hcapital
  · rw [hcapital]
    exact List.forall_mem_cons.2 ⟨hupper, fun d hd => h.parts d (by simp [hn, hd])⟩

end Feature.IsIdentifier

theorem FieldKind.allInert_staticType (k : FieldKind) : AllInert k.staticType := by
  cases k <;> exact .literal (by decide)

theorem FieldKind.allInert_schemaExpression (k : FieldKind) : AllInert k.schemaExpression := by
  cases k <;> exact .literal (by decide)

namespace Mapping

variable {m : Mapping} {ms : List Mapping}

theorem quiet_schemaLine (hm : ∃ f, ofField f = .ok m) : Quiet ("  " ++ m.key ++ ": " ++ m.validator.text ++ ",") := by
  obtain ⟨f, hf⟩ := hm
  obtain ⟨-, -, -, -, hvalidator⟩ := ofField_ok hf
  have hlist : (m.key ++ ": " ++ m.validator.text ++ "," ++ "\n").toList =
      (Identifier.key m.name).toList ++ ':' :: (" " ++ m.validator.text ++ ",\n").toList := by
    simp [key]
  have hrest : Passes .code (" " ++ m.validator.text ++ ",\n") .start := by
    rw [hvalidator]
    exact ((Passes.literal .code (by decide)).append (m.rule.passes_compile _)).append (.literal .start (by decide))
  rw [String.append_assoc, String.append_assoc, String.append_assoc, quiet_indented, ← String.append_assoc,
    ← String.append_assoc, Quiet, Passes, hlist, Identifier.after?_key]
  exact hrest

theorem passes_schema (h : ∀ m ∈ ms, ∃ f, ofField f = .ok m) : Passes .code (schema "  " ms) .code := by
  have hlines : AllQuiet (ms.map fun m => "  " ++ m.key ++ ": " ++ m.validator.text ++ ",") :=
    List.forall_mem_map.2 fun m hm => quiet_schemaLine (h m hm)
  have hrest : Passes .start (linesText (ms.map fun m => "  " ++ m.key ++ ": " ++ m.validator.text ++ ",")) .start := by
    rw [Passes, Text.toList_linesText]
    exact hlines.after_lines
  rw [FeatureDocument.schema_eq, Text.linesText_cons]
  exact (((Passes.literal .code (by decide)).append (.literal .start (by decide))).append hrest).append
    (.literal .code (by decide))

end Mapping

theorem FieldSheet.isReadable_ofMapping {m : Mapping} (h : ∀ c ∈ m.name.toList, isMark c = false) :
    (ofMapping m).IsReadable where
  name := h
  key := rfl
  member := rfl
  staticType := m.kind.allInert_staticType
  schemaExpression := m.kind.allInert_schemaExpression

namespace Feature

variable {f : Feature} {s : Settings}

def HasPlainFields (f : Feature) : Prop := ∀ x ∈ f.fields, ∀ c ∈ x.name.toList, isMark c = false

instance (f : Feature) : Decidable f.HasPlainFields :=
  haveI (x : Field) := List.decidableBAll (fun c => isMark c = false) x.name.toList
  List.decidableBAll (fun x : Field => ∀ c ∈ x.name.toList, isMark c = false) f.fields

theorem exists_of_mem_mappings (h : f.Maps) {m : Mapping} (hm : m ∈ f.mappings) :
    ∃ x ∈ f.fields, Mapping.ofField x = .ok m := by
  have hmem : .ok m ∈ f.fields.map Mapping.ofField := Mapping.ofFields_ok h.ofFields_eq ▸ List.mem_map_of_mem hm
  exact List.mem_map.1 hmem

theorem isReadable_sheet (hmaps : f.Maps) (hn : IsIdentifier f.name) (hfields : f.HasPlainFields)
    (hs : IsQuotable s.apiPrefix) : (f.sheet s).IsReadable where
  name := hn.isBinding
  className := hn.capitalize
  useCase := ((IsBinding.literal (by decide)).append hn.capitalize).append (.literal (by decide))
  fields := List.forall_mem_map.2 fun m hm => by
    obtain ⟨x, hx, hfield⟩ := exists_of_mem_mappings hmaps hm
    obtain ⟨-, -, rfl, -⟩ := Mapping.ofField_ok hfield
    exact FieldSheet.isReadable_ofMapping (hfields _ hx)
  validatorSchema := Mapping.passes_schema fun m hm => by
    obtain ⟨x, -, hfield⟩ := exists_of_mem_mappings hmaps hm
    exact ⟨x, hfield⟩
  sample := Mapping.passes_sampleJson _
  route := hs.passes_slash.append (hn.isBinding.passes Spot.isInner_quoted)
  article := by
    have harticle : AllInert (Text.article f.name.toList) := by
      rcases Text.article_cases f.name.toList with he | he <;> rw [he] <;> exact .literal (by decide)
    exact (harticle.append (.literal (by decide))).append hn.isBinding.allInert
  testId := .literal (by decide)

end Feature

end ApiScaffold
