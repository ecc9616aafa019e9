import ApiScaffold.Field.Basic
import ApiScaffold.Proofs.Path
import ApiScaffold.Proofs.Text.Breaks
import ApiScaffold.Proofs.Text.Trim

namespace ApiScaffold

namespace Field

open Text

variable {f : Field} {fs : List Field} {e cs name typeName rule : List Char} {s : String}

structure IsHead (t : String) : Prop where
  noComma : ',' ∉ t.toList
  noColon : ':' ∉ t.toList
  trimmed : IsTrimmed t.toList

/-- Fields that a specification can declare. Parts may be empty, and colons may stand in the rule. -/
structure IsWellFormed (f : Field) : Prop where
  name : IsHead f.name
  typeName : IsHead f.typeName
  ruleNoComma : ',' ∉ f.rule.toList
  ruleTrimmed : IsTrimmed f.rule.toList

/-- Entries as they are written for a field: there is a type, and no rule is left empty. -/
structure IsCanonical (e : List Char) : Prop where
  colon : ':' ∈ e
  segments : ∀ t ∈ (e.splitOn ':').take 2, IsTrimmed t
  rule : ∀ name typeName rule, e = name ++ ':' :: (typeName ++ ':' :: rule) → ':' ∉ name → ':' ∉ typeName →
    rule ≠ [] ∧ IsTrimmed rule

theorem toList_token (f : Field) : f.token.toList =
    f.name.toList ++ ':' :: (f.typeName.toList ++ if f.rule = "" then [] else ':' :: f.rule.toList) := by
  rw [token]
  split <;> simp

theorem noComma_token (h : f.IsWellFormed) : ',' ∉ f.token.toList := by
  rw [toList_token]
  split <;> simp [h.name.noComma, h.typeName.noComma, h.ruleNoComma]

theorem entry_cases (e : List Char) :
    ':' ∉ e ∨ (∃ name typeName, e = name ++ ':' :: typeName ∧ ':' ∉ name ∧ ':' ∉ typeName) ∨
      ∃ name typeName rule, e = name ++ ':' :: (typeName ++ ':' :: rule) ∧ ':' ∉ name ∧ ':' ∉ typeName := by
  by_cases he : ':' ∈ e
  · obtain ⟨name, rest, rfl, hname⟩ := List.eq_append_cons_of_mem he
    by_cases hrest : ':' ∈ rest
    · obtain ⟨typeName, rule, rfl, htype⟩ := List.eq_append_cons_of_mem hrest
      exact .inr (.inr ⟨name, typeName, rule, rfl, hname, htype⟩)
    · exact .inr (.inl ⟨name, rest, rfl, hname, hrest⟩)
  · exact .inl he

theorem ofEntry_noColon (h : ':' ∉ e) : ofEntry e = ⟨.ofList (strip e), "", ""⟩ := by
  rw [ofEntry, cut_of_not_mem h]
  rfl

theorem ofEntry_two (hname : ':' ∉ name) (htype : ':' ∉ typeName) :
    ofEntry (name ++ ':' :: typeName) = ⟨.ofList (strip name), .ofList (strip typeName), ""⟩ := by
  rw [ofEntry, cut_append hname]
  dsimp only [Option.getD_some]
  rw [cut_of_not_mem htype]
  rfl

theorem ofEntry_three (hname : ':' ∉ name) (htype : ':' ∉ typeName) (rule : List Char) :
    ofEntry (name ++ ':' :: (typeName ++ ':' :: rule)) =
      ⟨.ofList (strip name), .ofList (strip typeName), .ofList (strip rule)⟩ := by
  rw [ofEntry, cut_append hname]
  dsimp only [Option.getD_some]
  rw [cut_append htype]
  rfl

theorem isHead_strip (hcomma : ',' ∉ cs) (hcolon : ':' ∉ cs) : IsHead (.ofList (strip cs)) := by
  constructor <;> rw [String.toList_ofList]
  · exact fun h => hcomma (mem_of_mem_strip h)
  · exact fun h => hcolon (mem_of_mem_strip h)
  · exact isTrimmed_strip cs

theorem ofEntry_isWellFormed (h : ',' ∉ e) : (ofEntry e).IsWellFormed := by
  have hempty : IsHead "" := ⟨by decide, by decide, isTrimmed_nil⟩
  rcases entry_cases e with he | ⟨name, typeName, rfl, hname, htype⟩ | ⟨name, typeName, rule, rfl, hname, htype⟩
  · rw [ofEntry_noColon he]
    exact ⟨isHead_strip h he, hempty, hempty.noComma, isTrimmed_nil⟩
  · simp only [List.mem_append, List.mem_cons, not_or] at h
    rw [ofEntry_two hname htype]
    exact ⟨isHead_strip h.1 hname, isHead_strip h.2.2 htype, hempty.noComma, isTrimmed_nil⟩
  · simp only [List.mem_append, List.mem_cons, not_or] at h
    obtain ⟨hn, -, ht, -, hr⟩ := h
    rw [ofEntry_three hname htype]
    refine ⟨isHead_strip hn hname, isHead_strip ht htype, ?_, ?_⟩ <;> rw [String.toList_ofList]
    · exact fun hm => hr (mem_of_mem_strip hm)
    · exact isTrimmed_strip rule

theorem ofEntry_token (h : f.IsWellFormed) : ofEntry f.token.toList = f := by
  obtain ⟨name, typeName, rule⟩ := f
  have hn : strip name.toList = name.toList := h.name.trimmed.strip_eq
  have ht : strip typeName.toList = typeName.toList := h.typeName.trimmed.strip_eq
  have hr : strip rule.toList = rule.toList := h.ruleTrimmed.strip_eq
  rw [toList_token]
  split
  next hrule =>
    obtain rfl : rule = "" := hrule
    rw [List.append_nil, ofEntry_two h.name.noColon h.typeName.noColon, hn, ht, String.ofList_toList,
      String.ofList_toList]
  next =>
    rw [ofEntry_three h.name.noColon h.typeName.noColon, hn, ht, hr, String.ofList_toList, String.ofList_toList,
      String.ofList_toList]

theorem colon_mem_token (f : Field) : ':' ∈ f.token.toList := by
  rw [toList_token]
  simp

theorem not_isBlankEntry (h : ':' ∈ e) : isBlankEntry e = false := by
  rw [isBlankEntry, List.all_eq_false]
  exact ⟨':', h, by decide⟩

theorem entries_writeSpec (h : ∀ f ∈ fs, ',' ∉ f.token.toList) (hne : fs ≠ []) :
    entries (writeSpec fs) = fs.map fun f => f.token.toList := by
  have hcomma : ∀ e ∈ (fs.map token).map String.toList, ',' ∉ e := by
    intro e he
    rw [List.map_map] at he
    obtain ⟨f, hf, rfl⟩ := List.mem_map.1 he
    exact h f hf
  have htext : (writeSpec fs).toList = [','].intercalate ((fs.map token).map String.toList) :=
    String.toList_intercalate
  rw [entries, htext, List.splitOn_intercalate ',' hcomma (by simpa using hne), List.map_map]
  rfl

theorem readSpec_empty : readSpec "" = [] := by decide

theorem readSpec_isWellFormed (s : String) : ∀ f ∈ readSpec s, f.IsWellFormed := by
  intro f hf
  obtain ⟨e, he, rfl⟩ := List.mem_map.1 hf
  exact ofEntry_isWellFormed (Path.not_mem_of_mem_splitOn (List.mem_filter.1 he).1)

theorem readSpec_of_colons (h : ∀ e ∈ entries s, ':' ∈ e) : readSpec s = (entries s).map ofEntry := by
  rw [readSpec, List.filter_eq_self.2 fun e he => by rw [not_isBlankEntry (h e he)]; rfl]

theorem readSpec_writeSpec (h : ∀ f ∈ fs, f.IsWellFormed) : readSpec (writeSpec fs) = fs := by
  by_cases hne : fs = []
  · subst hne
    exact readSpec_empty
  · have hentries := entries_writeSpec (fun f hf => noComma_token (h f hf)) hne
    have hcolons : ∀ e ∈ entries (writeSpec fs), ':' ∈ e := by
      rw [hentries]
      intro e he
      obtain ⟨f, -, rfl⟩ := List.mem_map.1 he
      exact colon_mem_token f
    calc readSpec (writeSpec fs) = (entries (writeSpec fs)).map ofEntry := readSpec_of_colons hcolons
      _ = fs.map fun f => ofEntry f.token.toList := by rw [hentries, List.map_map]; rfl
      _ = fs.map id := List.map_congr_left fun f hf => ofEntry_token (h f hf)
      _ = fs := List.map_id fs

/-- Reading undoes writing on well-formed fields and on no others; so the canonical form declares the same fields. -/
theorem readSpec_writeSpec_iff :
    (∀ fs, readSpec (writeSpec fs) = fs ↔ ∀ f ∈ fs, f.IsWellFormed) ∧
      ∀ s, readSpec (canonical s) = readSpec s := by
  refine ⟨fun fs => ⟨fun h => ?_, readSpec_writeSpec⟩, fun s => ?_⟩
  · rw [← h]
    exact readSpec_isWellFormed _
  · exact readSpec_writeSpec (readSpec_isWellFormed s)

theorem isCanonical_two (hname : ':' ∉ name) (htype : ':' ∉ typeName) :
    IsCanonical (name ++ ':' :: typeName) ↔ IsTrimmed name ∧ IsTrimmed typeName := by
  have hsplit : (name ++ ':' :: typeName).splitOn ':' = [name, typeName] := by
    rw [List.splitOn_append_cons_self_of_not_mem hname, List.splitOn_eq_singleton htype]
  constructor
  · intro h
    have hsegments := h.segments
    rw [hsplit] at hsegments
    exact ⟨hsegments name (by simp), hsegments typeName (by simp)⟩
  · rintro ⟨hn, ht⟩
    refine ⟨by simp, ?_, ?_⟩
    · rw [hsplit]
      simp [hn, ht]
    · intro a b rule h ha _
      obtain ⟨-, rfl⟩ := append_cons_inj h hname ha
      exact absurd (by simp) htype

theorem isCanonical_three (hname : ':' ∉ name) (htype : ':' ∉ typeName) :
    IsCanonical (name ++ ':' :: (typeName ++ ':' :: rule)) ↔
      IsTrimmed name ∧ IsTrimmed typeName ∧ rule ≠ [] ∧ IsTrimmed rule := by
  have hsplit : ((name ++ ':' :: (typeName ++ ':' :: rule)).splitOn ':').take 2 = [name, typeName] := by
    rw [List.splitOn_append_cons_self_of_not_mem hname, List.splitOn_append_cons_self_of_not_mem htype]
    rfl
  constructor
  · intro h
    have hsegments := h.segments
    rw [hsplit] at hsegments
    exact ⟨hsegments name (by simp), hsegments typeName (by simp), h.rule name typeName rule rfl hname htype⟩
  · rintro ⟨hn, ht, hrule⟩
    refine ⟨by simp, ?_, ?_⟩
    · rw [hsplit]
      simp [hn, ht]
    · intro a b r h ha hb
      obtain ⟨-, hrest⟩ := append_cons_inj h hname ha
      obtain ⟨-, rfl⟩ := append_cons_inj hrest htype hb
      exact hrule

theorem isCanonical_token (h : f.IsWellFormed) : IsCanonical f.token.toList := by
  rw [toList_token]
  split
  next =>
    rw [List.append_nil, isCanonical_two h.name.noColon h.typeName.noColon]
    exact ⟨h.name.trimmed, h.typeName.trimmed⟩
  next hrule =>
    rw [isCanonical_three h.name.noColon h.typeName.noColon]
    exact ⟨h.name.trimmed, h.typeName.trimmed, by simpa using hrule, h.ruleTrimmed⟩

theorem token_ofEntry (h : IsCanonical e) : (ofEntry e).token = .ofList e := by
  rw [← String.toList_inj, toList_token, String.toList_ofList]
  rcases entry_cases e with he | ⟨name, typeName, rfl, hname, htype⟩ | ⟨name, typeName, rule, rfl, hname, htype⟩
  · exact absurd h.colon he
  · obtain ⟨hn, ht⟩ := (isCanonical_two hname htype).1 h
    rw [ofEntry_two hname htype, hn.strip_eq, ht.strip_eq]
    simp
  · obtain ⟨hn, ht, hne, hr⟩ := (isCanonical_three hname htype).1 h
    rw [ofEntry_three hname htype, hn.strip_eq, ht.strip_eq, hr.strip_eq]
    simp [hne]

theorem writeSpec_map_ofEntry (h : ∀ e ∈ entries s, IsCanonical e) : writeSpec ((entries s).map ofEntry) = s := by
  have htokens : ((entries s).map ofEntry).map token = (entries s).map String.ofList := by
    rw [List.map_map]
    exact List.map_congr_left fun e he => token_ofEntry (h e he)
  have hlists : ((entries s).map String.ofList).map String.toList = entries s := by
    rw [List.map_map, show String.toList ∘ String.ofList = id from funext fun l => String.toList_ofList, List.map_id]
  rw [writeSpec, htokens, ← String.toList_inj, String.toList_intercalate, hlists]
  exact List.intercalate_splitOn ','

/-- Canonical specifications are the empty one and those of canonical entries only, and writing leads to them. -/
theorem canonical_eq_self_iff :
    (∀ s, canonical s = s ↔ s = "" ∨ ∀ e ∈ entries s, IsCanonical e) ∧
      ∀ s, canonical (canonical s) = canonical s := by
  refine ⟨fun s => ⟨fun h => ?_, ?_⟩, fun s => ?_⟩
  · have hformed := readSpec_isWellFormed s
    by_cases hne : readSpec s = []
    · left
      rw [← h, canonical, hne]
      rfl
    · right
      rw [← h, canonical, entries_writeSpec (fun f hf => noComma_token (hformed f hf)) hne]
      intro e he
      obtain ⟨f, hf, rfl⟩ := List.mem_map.1 he
      exact isCanonical_token (hformed f hf)
  · rintro (rfl | h)
    · decide
    · rw [canonical, readSpec_of_colons fun e he => (h e he).colon, writeSpec_map_ofEntry h]
  · have hread : readSpec (canonical s) = readSpec s := readSpec_writeSpec (readSpec_isWellFormed s)
    rw [canonical, hread]
    rfl

end Field

end ApiScaffold
