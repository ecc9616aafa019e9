import ApiScaffold.Feature.Documents
import ApiScaffold.Proofs.Project.Declarations
import ApiScaffold.Proofs.Text.Trim
import ApiScaffold.Proofs.Feature.Scope

namespace ApiScaffold

open TypeScript Text

variable {n k e v w : String} {s : FeatureSheet}

def ending (n : String) : List Char := n.toList.reverse.take 3

theorem ending_append (n : String) (h : 3 ≤ w.length) : ending (n ++ w) = ending w := by
  rw [← String.length_toList, ← List.length_reverse] at h
  rw [ending, ending, String.toList_append, List.reverse_append, List.take_append_of_le_length h]

theorem nodup_middle_iff (xs : List String) (n : String) (ys : List String) (h : ((xs ++ ys).map ending).Nodup) :
    (xs ++ n :: ys).Nodup ↔ n ∉ xs ++ ys := by
  rw [List.nodup_middle, List.nodup_cons]
  exact and_iff_left h.of_map

theorem trim_word (hn : IsBinding n) (he : e = "" ∨ e = "\n") : trim (n ++ e) = n := by
  have hblank : ∀ c ∈ e.toList, isBlank c = true := by
    rcases he with rfl | rfl
    · exact List.forall_mem_nil _
    · exact List.all_eq_true.1 (by decide)
  have hstrip := strip_between (List.forall_mem_nil _) hblank (isTrimmed_of_forall hn.isWord)
  rw [List.nil_append] at hstrip
  rw [trim, String.toList_append, hstrip, String.ofList_toList]

theorem TypeScript.IsBinding.trim_eq (h : IsBinding n) : trim n = n := by
  have htrim := trim_word h (.inl rfl)
  rwa [String.append_empty] at htrim

theorem trim_append (hn : IsBinding n) (hw : IsBinding w) (t : String) : trim (n ++ t ++ w) = n ++ t ++ w := by
  have hnne : n.toList ≠ [] := by simpa using hn.ne_empty
  have hwne : w.toList ≠ [] := by simpa using hw.ne_empty
  have htrimmed : IsTrimmed (n ++ t ++ w).toList := by
    rw [String.toList_append, String.toList_append]
    exact (isTrimmed_of_forall hn.isWord).around (isTrimmed_of_forall hw.isWord) hnne hwne _
  rw [trim, htrimmed.strip_eq, String.ofList_toList]

/-- The sheet's class has an identifier for its name, with a line break behind it at most. -/
structure FeatureSheet.IsNamed (s : FeatureSheet) (k e : String) : Prop where
  className : s.className = k ++ e
  useCase : s.useCase = "Create" ++ s.className ++ "UseCase"
  isBinding : IsBinding k
  capital : ∀ c ∈ k.toList.head?, ¬c.isLower
  tail : e = "" ∨ e = "\n"
  name : ∃ m, s.name = m ++ e ∧ IsBinding m ∧ m.length = k.length

namespace FeatureSheet.IsNamed

theorem trim_class (h : s.IsNamed k e) : trim s.className = k := by
  rw [h.className]
  exact trim_word h.isBinding h.tail

theorem trim_first (h : s.IsNamed k e) (hw : IsBinding w) : trim (s.className ++ w) = s.className ++ w := by
  rw [h.className]
  exact trim_append h.isBinding hw e

theorem trim_last (h : s.IsNamed k e) (hv : IsBinding v) : trim (v ++ s.className) = v ++ k := by
  rw [h.className, ← String.append_assoc]
  exact trim_word (hv.append h.isBinding) h.tail

theorem trim_schema (h : s.IsNamed k e) : trim (s.name ++ "Schema") = s.name ++ "Schema" := by
  obtain ⟨m, hname, hm, -⟩ := h.name
  rw [hname]
  exact trim_append hm (by decide) e

theorem ne_of_lt (h : s.IsNamed k e) (hw : s.className.length < w.length) : k ≠ w := by
  rintro rfl
  rw [h.className, String.length_append] at hw
  omega

theorem ne_first (h : s.IsNamed k e) (hw : 0 < w.length) : k ≠ s.className ++ w :=
  h.ne_of_lt (by rw [String.length_append]; omega)

theorem ne_between (h : s.IsNamed k e) (v : String) (hw : 0 < w.length) : k ≠ v ++ s.className ++ w :=
  h.ne_of_lt (by rw [String.length_append, String.length_append]; omega)

theorem head_class (h : s.IsNamed k e) (w : String) : ∀ c ∈ (s.className ++ w).toList.head?, ¬c.isLower := by
  intro c hc
  rw [h.className, String.append_assoc, String.toList_append,
    List.head?_append_of_ne_nil _ (by simpa using h.isBinding.ne_empty)] at hc
  exact h.capital c hc

theorem length_pos (h : s.IsNamed k e) : 0 < k.length := by
  rw [Nat.pos_iff_ne_zero, Ne, String.length_eq_zero_iff]
  exact h.isBinding.ne_empty

theorem length_class (h : s.IsNamed k e) : k.length ≤ s.className.length := by
  rw [h.className, String.length_append]
  omega

theorem ne_small (h : s.IsNamed k e) (hw : w.toList.head?.any Char.isLower = true) : k ≠ w := by
  rintro rfl
  obtain ⟨c, hc, hlower⟩ := (Option.any_eq_true _ _).1 hw
  exact h.capital c hc hlower

end FeatureSheet.IsNamed

namespace FeatureDocument

/-- The names that the document binds. -/
def names (s : FeatureSheet) : FeatureDocument → List String
  | container =>
    ["container", s.className ++ "Controller", s.useCase, s.className ++ "RepositoryImpl", s.className ++ "DataSource"]
  | entity => [s.className]
  | repositoryInterface => ["Result", s.className, "CustomError", s.className ++ "Repository"]
  | useCase => ["injectable", "inject", s.className, s.className ++ "Repository", "Result", "CustomError",
      "Create" ++ s.className ++ "Dto", s.useCase]
  | model =>
    ["mongoose", "Schema", "Document", "I" ++ s.className, s.className ++ "Schema", s.className ++ "Model"]
  | dataSource => ["injectable", s.className, s.className ++ "Model", "Result", "Ok", "Err", "CustomError",
      s.className ++ "DataSource"]
  | repository => ["injectable", "inject", s.className, s.className ++ "Repository", s.className ++ "DataSource",
      "Result", "CustomError", s.className ++ "RepositoryImpl"]
  | middleware => ["Request", "Response", "NextFunction", "z", s.name ++ "Schema", "validate" ++ s.className]
  | controller => ["injectable", "inject", "Request", "Response", "Router", s.useCase,
      "Create" ++ s.className ++ "Dto", "validate" ++ s.className, s.className ++ "Controller"]
  | useCaseTest => [s.useCase, "Create" ++ s.className ++ "Dto", s.className ++ "Repository", "Ok", "Err",
      "CustomError", s.className]
  | controllerTest =>
    ["request", "express", "container", s.className ++ "Controller", s.useCase, "Ok", s.className]

theorem bound_module (s : FeatureSheet) (d : FeatureDocument) : (d.module s).bound = d.names s := by
  cases d <;> rfl

def taken : FeatureDocument → List String
  | repositoryInterface | useCase | repository => ["Result", "CustomError"]
  | dataSource => ["Result", "Ok", "Err", "CustomError"]
  | useCaseTest => ["Ok", "Err", "CustomError"]
  | controllerTest => ["Ok"]
  | container | entity | model | middleware | controller => []

theorem ne_of_head? {c : Char} (hv : v.toList.head? = some c) (hw : w.toList.head? ≠ some c) : v ≠ w := by
  rintro rfl
  exact hw hv

theorem ne_of_length (h : v.length < w.length) : w ≠ v := by
  rintro rfl
  exact Nat.lt_irrefl _ h

theorem validate_not_mem (h : s.IsNamed k e) : "validate" ++ k ∉ ["injectable", "inject", "Request", "Response",
    "Router", "Create" ++ s.className ++ "UseCase", "Create" ++ s.className ++ "Dto"] ++
      [s.className ++ "Controller"] := by
  have hhead : ("validate" ++ k).toList.head? = some 'v' := by rw [String.toList_append]; rfl
  have hcreate (w : String) : ("Create" ++ s.className ++ w).toList.head? ≠ some 'v' := by
    have hc : ("Create" ++ s.className ++ w).toList.head? = some 'C' := by
      rw [String.toList_append, String.toList_append]
      rfl
    rw [hc]
    decide
  have hclass : (s.className ++ "Controller").toList.head? ≠ some 'v' := fun hv => h.head_class _ 'v' hv (by decide)
  simp only [List.cons_append, List.nil_append, List.mem_cons, List.not_mem_nil, or_false, not_or]
  exact ⟨ne_of_head? hhead (by decide), ne_of_head? hhead (by decide), ne_of_head? hhead (by decide),
    ne_of_head? hhead (by decide), ne_of_head? hhead (by decide), ne_of_head? hhead (hcreate _),
    ne_of_head? hhead (hcreate _), ne_of_head? hhead hclass⟩

theorem validate_not_mem_schema (h : s.IsNamed k e) :
    "validate" ++ k ∉ ["Request", "Response", "NextFunction", "z", s.name ++ "Schema"] ++ [] := by
  have hhead : ("validate" ++ k).toList.head? = some 'v' := by rw [String.toList_append]; rfl
  have hlength : (s.name ++ "Schema").length < ("validate" ++ k).length := by
    obtain ⟨m, hname, -, hm⟩ := h.name
    have he : e.length ≤ 1 := by
      obtain rfl | rfl := h.tail
      · decide
      · decide
    have hschema : "Schema".length = 6 := rfl
    have hvalidate : "validate".length = 8 := rfl
    rw [hname, String.length_append, String.length_append, String.length_append, hschema, hvalidate]
    omega
  simp only [List.cons_append, List.nil_append, List.mem_cons, List.not_mem_nil, or_false, not_or]
  exact ⟨ne_of_head? hhead (by decide), ne_of_head? hhead (by decide), ne_of_head? hhead (by decide),
    ne_of_head? hhead (by decide), ne_of_length hlength⟩

theorem model_nodup (h : s.IsNamed k e) : ["mongoose", "Schema", "Document", "I" ++ k, s.className ++ "Schema",
    s.className ++ "Model"].Nodup := by
  have hpos := h.length_pos
  have hclass := h.length_class
  have hi : "I".length = 1 := rfl
  have hschema : "Schema".length = 6 := rfl
  have hmodel : "Model".length = 5 := rfl
  have hhead : ("I" ++ k).toList.head? = some 'I' := by rw [String.toList_append]; rfl
  change (["mongoose", "Schema", "Document"] ++ ("I" ++ k) :: [_, _]).Nodup
  rw [List.nodup_middle, List.nodup_cons]
  constructor
  · simp only [List.cons_append, List.nil_append, List.mem_cons, List.not_mem_nil, or_false, not_or]
    refine ⟨ne_of_head? hhead (by decide), ne_of_head? hhead (by decide), ne_of_head? hhead (by decide), ?_, ?_⟩
    · exact (ne_of_length (by rw [String.length_append, String.length_append]; omega)).symm
    · exact (ne_of_length (by rw [String.length_append, String.length_append]; omega)).symm
  · refine (nodup_middle_iff ["mongoose"] "Schema" ["Document", _, _] ?_).2 ?_
    · simp (disch := decide) only [List.map, List.cons_append, List.nil_append, ending_append]
      decide
    · simp only [List.cons_append, List.nil_append, List.mem_cons, List.not_mem_nil, or_false, not_or]
      refine ⟨by decide, by decide, (ne_of_length (by rw [String.length_append]; omega)).symm, fun he => ?_⟩
      have hending : ending "Schema" = ending "Model" := he ▸ ending_append _ (by decide)
      cases hending

theorem names_nodup_iff (h : s.IsNamed k e) (d : FeatureDocument) :
    ((d.names s).map trim).Nodup ↔ k ∉ d.taken := by
  have hfixed {w : String} (hw : IsBinding w) : trim w = w := hw.trim_eq
  have hpair {v w : String} (hv : IsBinding v) (hw : IsBinding w) :
      trim (v ++ s.className ++ w) = v ++ s.className ++ w := trim_append hv hw s.className
  cases d <;> simp (disch := decide) only [names, List.map, h.useCase, hfixed, hpair, h.trim_first, h.trim_class,
    h.trim_last, h.trim_schema]
  case model => exact iff_of_true (model_nodup h) List.not_mem_nil
  case' entity => refine iff_of_true (List.nodup_singleton k) List.not_mem_nil
  case' container => refine iff_of_true (.of_map ending ?_) List.not_mem_nil
  case' middleware =>
    refine iff_of_true ((nodup_middle_iff [_, _, _, _, _] _ [] ?_).2 (validate_not_mem_schema h)) List.not_mem_nil
  case' controller =>
    refine iff_of_true ((nodup_middle_iff [_, _, _, _, _, _, _] _ [_] ?_).2 (validate_not_mem h)) List.not_mem_nil
  case' repositoryInterface => refine (nodup_middle_iff [_] k [_, _] ?_).trans ?_
  case' useCase => refine (nodup_middle_iff [_, _] k [_, _, _, _, _] ?_).trans ?_
  case' dataSource => refine (nodup_middle_iff [_] k [_, _, _, _, _, _] ?_).trans ?_
  case' repository => refine (nodup_middle_iff [_, _] k [_, _, _, _, _] ?_).trans ?_
  case' useCaseTest => refine (nodup_middle_iff [_, _, _, _, _, _] k [] ?_).trans ?_
  case' controllerTest => refine (nodup_middle_iff [_, _, _, _, _, _] k [] ?_).trans ?_
  -- Of each document now remain the endings of the other names, and which of them the class can be.
  all_goals first
    | simp (disch := decide) only [List.map, List.cons_append, List.nil_append, ending_append]
      decide
    | simp (disch := decide) only [List.cons_append, List.nil_append, List.mem_cons, List.not_mem_nil, h.ne_first,
        h.ne_between, h.ne_small, taken, false_or, or_false]

/-- The names are read off the text of the document. -/
theorem boundNames_document (h : s.IsNamed k e) (hs : s.IsScoped) (d : FeatureDocument) :
    boundNames (d.document s).content = (d.module s).bound ∧
      ((boundNames (d.document s).content).Nodup ↔ k ∉ d.taken) := by
  have hread : boundNames (d.document s).content = (d.module s).bound :=
    Module.boundNames_text (FeatureModule.isScoped hs d)
  have hfixed : (d.module s).bound.map trim = (d.module s).bound := by
    refine (List.map_congr_left fun n hn => ?_).trans (List.map_id _)
    obtain ⟨st, hst, hmem⟩ := List.mem_flatMap.1 hn
    exact ((FeatureModule.isScoped hs d st hst).isBinding_bound n hmem).trim_eq
  refine ⟨hread, ?_⟩
  rw [hread, ← hfixed, bound_module]
  exact names_nodup_iff h d

end FeatureDocument

namespace Feature

theorem exists_identifier_of_review (he : (reviewName n).errors = []) (hw : (reviewName n).warnings = []) :
    ∃ m e, IsIdentifier m ∧ (e = "" ∨ e = "\n") ∧ n = m ++ e :=
  Identifier.exists_identifier_of_isValid ((reviewName_quiet_iff n).1 ⟨he, hw⟩)

theorem isNamed_sheet {m : String} (hm : IsIdentifier m) (he : e = "" ∨ e = "\n") (phrase : String)
    (ms : List Mapping) (s : Settings) :
    (FeatureSheet.ofMappings (m ++ e) phrase ms s).IsNamed (Text.capitalize m) e := by
  obtain ⟨c, hc, hstart⟩ := hm.start
  obtain ⟨cs, hlist⟩ : ∃ cs, m.toList = c :: cs := List.head?_eq_some_iff.1 hc
  have happend : (m ++ e).toList = c :: (cs ++ e.toList) := by rw [String.toList_append, hlist, List.cons_append]
  have hcapital := toList_capitalize hlist hstart
  have hupper : ¬c.toUpper.isLower := by
    by_cases hlower : c.isLower
    · exact (toUpper_small hlower).2
    · rwa [toUpper_of_not_isLower hlower]
  refine ⟨?_, rfl, hm.capitalize, ?_, he, m, rfl, hm.isBinding, ?_⟩
  · rw [← String.toList_inj, String.toList_append, hcapital]
    exact toList_capitalize happend hstart
  · rw [hcapital]
    rintro _ ⟨⟩
    exact hupper
  · rw [← String.length_toList, ← String.length_toList, hcapital, hlist]
    rfl

/-- A document binds each name once just when the class is not named like something that is imported from the core. What
the document binds is read off its text, unless a name or the prefix breaks out of its place there. -/
theorem names_distinct_iff {f : Feature} {s : Settings} {docs : List Document} (he : (reviewName f.name).errors = [])
    (hw : (reviewName f.name).warnings = []) (h : f.documents s = .ok docs) :
    ∃ sheet, docs = FeatureDocument.all.map (FeatureDocument.document sheet) ∧ ∀ d,
      (((d.module sheet).bound.map trim).Nodup ↔ trim (Text.capitalize f.name) ∉ d.taken) ∧
      (IsIdentifier f.name → f.HasBareFields → IsQuotable s.apiPrefix →
        boundNames (FeatureDocument.document sheet d).content = (d.module sheet).bound ∧
        ((boundNames (FeatureDocument.document sheet d).content).Nodup ↔ Text.capitalize f.name ∉ d.taken)) := by
  obtain ⟨hmaps, -, rfl⟩ := documents_eq_ok.1 h
  obtain ⟨m, e, hm, htail, hname⟩ := exists_identifier_of_review he hw
  have hnamed := isNamed_sheet hm htail (Text.withArticle f.name) f.mappings s
  rw [← hname] at hnamed
  have hclass : trim (Text.capitalize f.name) = Text.capitalize m := hnamed.trim_class
  refine ⟨_, rfl, fun d => ⟨?_, fun hidentifier hfields hs => ?_⟩⟩
  · rw [FeatureDocument.bound_module, hclass]
    exact FeatureDocument.names_nodup_iff hnamed d
  · have hphrase : Text.withArticle f.name = Text.article f.name.toList ++ " " ++ f.name :=
      Text.withArticle_word hidentifier.isName.ne_empty hidentifier.isName.isWord
    have hscoped := isScoped_sheet hmaps hidentifier hfields hs
    rw [sheet, ← hphrase] at hscoped
    rw [← hidentifier.capitalize.trim_eq, hclass]
    exact FeatureDocument.boundNames_document hnamed hscoped d

theorem names_distinct_iff_shop :
    (reviewName "shop").errors = [] ∧ (reviewName "shop").warnings = [] ∧
      ∃ docs, (⟨"shop", [⟨"name", "string", ""⟩]⟩ : Feature).documents .standard = .ok docs ∧
        ∀ doc ∈ docs, (boundNames doc.content).Nodup := by
  have hok : ∃ docs, (⟨"shop", [⟨"name", "string", ""⟩]⟩ : Feature).documents .standard = .ok docs := ⟨_, rfl⟩
  obtain ⟨docs, hdocs⟩ := hok
  obtain ⟨sheet, rfl, hsheet⟩ := names_distinct_iff (by decide) (by decide) hdocs
  refine ⟨by decide, by decide, _, hdocs, List.forall_mem_map.2 fun d _ => ?_⟩
  obtain ⟨-, hread⟩ := hsheet d
  refine (hread (by decide) (by decide +kernel) (by decide +kernel)).2.2 ?_
  cases d <;> decide +kernel

theorem result_bound_twice :
    (reviewName "result").errors = [] ∧ (reviewName "result").warnings = [] ∧
      ∃ docs, (⟨"result", [⟨"name", "string", ""⟩]⟩ : Feature).documents .standard = .ok docs ∧
        ∃ doc ∈ docs, (boundNames doc.content).count "Result" = 2 := by
  have hmaps : Feature.Maps ⟨"result", [⟨"name", "string", ""⟩]⟩ := ⟨_, rfl⟩
  have hidentifier : IsIdentifier "result" := by decide
  have hscoped := isScoped_sheet (s := .standard) hmaps hidentifier (by decide +kernel) (by decide +kernel)
  have hread := Module.boundNames_text (FeatureModule.isScoped hscoped .repositoryInterface)
  have hmem : FeatureDocument.repositoryInterface ∈ FeatureDocument.all := by decide
  refine ⟨by decide, by decide, _, documents_eq hmaps hidentifier.isName, _, List.mem_map_of_mem hmem, ?_⟩
  rw [FeatureDocument.document, hread]
  decide +kernel

end Feature

end ApiScaffold
