import ApiScaffold.Proofs.Field.Sample
import ApiScaffold.Proofs.Field.Specification
import ApiScaffold.Proofs.Json.OneLine

namespace ApiScaffold

variable {name typeName : String} {ls : List String}

namespace Rule

/-- Literals that an enumeration can declare. -/
structure AreLiterals (ls : List String) : Prop where
  ne_nil : ls ≠ []
  ne_empty : ∀ l ∈ ls, l ≠ ""
  noBar : ∀ l ∈ ls, '|' ∉ l.toList

def enumToken (ls : List String) : String := "enum=" ++ "|".intercalate ls

theorem toList_enumToken (ls : List String) :
    (enumToken ls).toList = "enum".toList ++ '=' :: ("|".intercalate ls).toList := by
  rw [enumToken, String.toList_append]
  rfl

theorem literals_intercalate (h : AreLiterals ls) : literals ("|".intercalate ls).toList = ls := by
  have hbars : ∀ l ∈ ls.map String.toList, '|' ∉ l := by
    intro cs hcs
    obtain ⟨l, hl, rfl⟩ := List.mem_map.1 hcs
    exact h.noBar l hl
  have hfull : ∀ l ∈ ls.map String.toList, (!l.isEmpty) = true := by
    intro cs hcs
    obtain ⟨l, hl, rfl⟩ := List.mem_map.1 hcs
    simpa using h.ne_empty l hl
  have htext : ("|".intercalate ls).toList = ['|'].intercalate (ls.map String.toList) := String.toList_intercalate
  rw [literals, htext, List.splitOn_intercalate '|' hbars (by simpa using h.ne_nil), List.filter_eq_self.2 hfull,
    List.map_map, show String.ofList ∘ String.toList = id from funext fun l => String.ofList_toList, List.map_id]

theorem exists_opening (hne : ls ≠ []) :
    ∃ opening, ("|".intercalate ls).toList = opening ++ (ls.getLast hne).toList := by
  induction ls with
  | nil => exact absurd rfl hne
  | cons l ls ih =>
      cases ls with
      | nil => exact ⟨[], by rw [String.intercalate_singleton]; rfl⟩
      | cons m ls =>
          obtain ⟨opening, hopening⟩ := ih (List.cons_ne_nil m ls)
          refine ⟨l.toList ++ '|' :: opening, ?_⟩
          rw [String.intercalate_cons_cons, String.toList_append, String.toList_append, hopening, List.append_assoc,
            List.append_assoc]
          rfl

theorem isTrimmed_enumToken (h : AreLiterals ls)
    (hlast : ∀ c ∈ (ls.getLast h.ne_nil).toList.getLast?, Text.isBlank c = false) :
    Text.IsTrimmed (enumToken ls).toList := by
  obtain ⟨opening, hopening⟩ := exists_opening h.ne_nil
  have hliteral : (ls.getLast h.ne_nil).toList ≠ [] := by
    rw [Ne, String.toList_eq_nil_iff]
    exact h.ne_empty _ (List.getLast_mem h.ne_nil)
  constructor
  · intro c hc
    rw [toList_enumToken] at hc
    obtain rfl : 'e' = c := Option.some.inj hc
    decide
  · intro c hc
    rw [enumToken, String.toList_append, hopening, ← List.append_assoc, List.getLast?_append_of_ne_nil _ hliteral] at hc
    exact hlast c hc

theorem means_enumToken (h : AreLiterals ls) : Means (enumToken ls).toList (.oneOf ls) :=
  .oneOf (toList_enumToken ls) (literals_intercalate h) h.ne_nil

end Rule

namespace Validator

theorem enumText_eq (ls : List String) : enumText ls = "z.enum(" ++ (Data.list (ls.map .str)).json ++ ")" := by
  have hquoted : (ls.map Data.str).map Data.json = ls.map Json.quote := by
    rw [List.map_map]
    exact List.map_congr_left fun l _ => by rw [Function.comp_apply, Data.json]
  rw [enumText, Data.json, Json.jsons_eq_map, hquoted, ← String.toList_inj]
  simp only [String.toList_append, List.append_assoc]
  rfl

theorem readStrict_enumText (ls : List String) :
    ∃ a, enumText ls = "z.enum(" ++ a ++ ")" ∧ Json.readStrict a = some (.list (ls.map .str)) := by
  refine ⟨_, enumText_eq ls, Json.readStrict_list fun d hd => ?_⟩
  obtain ⟨l, -, rfl⟩ := List.mem_map.1 hd
  exact .str l

end Validator

namespace Field

structure IsSegment (t : String) : Prop where
  noComma : ',' ∉ t.toList
  noColon : ':' ∉ t.toList

theorem readSpec_entry {rule : String} (hname : IsSegment name) (htype : IsSegment typeName)
    (hrule : ',' ∉ rule.toList) :
    readSpec (name ++ ":" ++ typeName ++ ":" ++ rule) = [⟨Text.trim name, Text.trim typeName, Text.trim rule⟩] := by
  have htext : (name ++ ":" ++ typeName ++ ":" ++ rule).toList =
      name.toList ++ ':' :: (typeName.toList ++ ':' :: rule.toList) := by
    simp only [String.toList_append, List.append_assoc]
    rfl
  have hentries : entries (name ++ ":" ++ typeName ++ ":" ++ rule) =
      [name.toList ++ ':' :: (typeName.toList ++ ':' :: rule.toList)] := by
    rw [entries, htext, List.splitOn_eq_singleton]
    simp [hname.noComma, htype.noComma, hrule]
  rw [readSpec_of_colons (by simp [hentries]), hentries, List.map_singleton, ofEntry_three hname.noColon htype.noColon]
  rfl

end Field

namespace Mapping

theorem ofField_oneOf {f : Field} (h : Rule.Means (Text.strip f.rule.toList) (.oneOf ls)) (hne : ls ≠ []) :
    ∃ m, ofField f = .ok m ∧ m.kind = .string ∧ m.sample = .text (ls.head hne) ∧ m.validator = .oneOf ls := by
  have hread : Rule.read f.rule = .ok ⟨Text.trim f.rule, .oneOf ls⟩ := Rule.read_eq_ok_iff.2 ⟨h, rfl⟩
  rw [ofField_eq hread, sampleFor, Rule.appliesTo]
  refine ⟨_, rfl, rfl, ?_, rfl⟩
  rw [List.headD_eq_head?_getD, List.head?_eq_some_head hne]
  rfl

end Mapping

/-- An enumeration that is declared in a specification gives a text, with its first literal for a sample and a validator
that admits the literals as they were written. -/
theorem Field.enumeration_declared (hname : IsSegment name) (htype : IsSegment typeName) (h : Rule.AreLiterals ls)
    (hcomma : ∀ l ∈ ls, ',' ∉ l.toList) (hlast : ∀ c ∈ (ls.getLast h.ne_nil).toList.getLast?, Text.isBlank c = false) :
    ∃ f m a, readSpec (name ++ ":" ++ typeName ++ ":" ++ Rule.enumToken ls) = [f] ∧ Mapping.ofField f = .ok m ∧
      m.kind.staticType = "string" ∧ m.kind.schemaType = "String" ∧ m.sample = .text (ls.head h.ne_nil) ∧
      m.validator.text = "z.enum(" ++ a ++ ")" ∧ Json.readStrict a = some (.list (ls.map .str)) := by
  have hrule : ',' ∉ (Rule.enumToken ls).toList := by
    rw [Rule.enumToken, String.toList_append]
    exact List.not_mem_append (by decide) (Text.not_mem_intercalate (by decide) hcomma)
  have htrimmed := Rule.isTrimmed_enumToken h hlast
  have htrim : Text.trim (Rule.enumToken ls) = Rule.enumToken ls := by
    rw [Text.trim, htrimmed.strip_eq, String.ofList_toList]
  have hspec := readSpec_entry hname htype hrule
  rw [htrim] at hspec
  have hmeans : Rule.Means (Text.strip (Rule.enumToken ls).toList) (.oneOf ls) := by
    rw [htrimmed.strip_eq]
    exact Rule.means_enumToken h
  obtain ⟨m, hm, hkind, hsample, hvalidator⟩ :=
    Mapping.ofField_oneOf (f := ⟨Text.trim name, Text.trim typeName, Rule.enumToken ls⟩) hmeans h.ne_nil
  obtain ⟨a, ha, hread⟩ := Validator.readStrict_enumText ls
  refine ⟨_, m, a, hspec, hm, ?_, ?_, hsample, ?_, hread⟩
  · rw [hkind]
    rfl
  · rw [hkind]
    rfl
  · rw [hvalidator]
    exact ha

/-- Colons, marks, quotation marks, backslashes and a blank in the literals, and a type that is no text. -/
theorem Field.enumeration_declared_marks :
    let ls := [" a:b=\"c\"\\", "é😀"]
    ∃ f m a, readSpec ("kind : number:" ++ Rule.enumToken ls) = [f] ∧ Mapping.ofField f = .ok m ∧
      m.kind.staticType = "string" ∧ m.kind.schemaType = "String" ∧ m.sample = .text " a:b=\"c\"\\" ∧
      m.validator.text = "z.enum(" ++ a ++ ")" ∧ Json.readStrict a = some (.list (ls.map .str)) := by
  intro ls
  have hname : IsSegment "kind " := ⟨by decide, by decide⟩
  have htype : IsSegment " number" := ⟨by decide, by decide⟩
  have hls : Rule.AreLiterals ls := ⟨by decide, by decide, by decide⟩
  have hlast : ∀ c ∈ "é😀".toList.getLast?, Text.isBlank c = false := by
    intro c hc
    obtain rfl : '😀' = c := Option.some.inj hc
    decide
  exact enumeration_declared hname htype hls (by decide) hlast

end ApiScaffold
