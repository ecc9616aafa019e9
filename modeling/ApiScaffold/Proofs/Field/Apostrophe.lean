import ApiScaffold.Proofs.Field.Grammar
import ApiScaffold.Proofs.Field.Payload

namespace ApiScaffold

open Text Json

namespace Text

variable {c : Char} {sep : String} {ss : List String}

theorem mem_intercalate_of_mem {s : String} (hs : s ∈ ss) (hc : c ∈ s.toList) : c ∈ (sep.intercalate ss).toList := by
  induction ss with
  | nil => cases hs
  | cons t ss ih =>
      cases ss with
      | nil =>
          obtain rfl := List.mem_singleton.1 hs
          simpa using hc
      | cons u ss =>
          rw [String.intercalate_cons_cons, String.toList_append, String.toList_append, List.mem_append,
            List.mem_append]
          rcases List.mem_cons.1 hs with rfl | hs
          · exact .inl (.inl hc)
          · exact .inr (ih hs)

end Text

namespace Json

variable {c : Char} {s : String}

theorem apostrophe_mem_escape : '\'' ∈ escape c ↔ c = '\'' := by
  constructor
  · intro h
    unfold escape at h
    -- the characters with an escape of their own
    iterate 7
      split at h
      · exact absurd h (by decide)
    split at h
    · exact (List.mem_singleton.1 h).symm
    · obtain ⟨u, -, hu⟩ := List.mem_flatMap.1 h
      have hhex : '\'' ∉ hex 4 u := fun hm => absurd (hex_numerals 4 u hm) (by decide)
      simp [unitEscape, hhex] at hu
  · rintro rfl
    decide

theorem apostrophe_mem_quote : '\'' ∈ (quote s).toList ↔ '\'' ∈ s.toList := by
  rw [quote, String.toList_ofList]
  simp [apostrophe_mem_escape]

theorem apostrophe_mem_number (n : Number) : '\'' ∉ n.json.toList := fun h => absurd (n.json_numerals h) (by decide)

theorem apostrophe_mem_memberText {p : String × Data} :
    '\'' ∈ (memberText p).toList ↔ '\'' ∈ p.1.toList ∨ '\'' ∈ p.2.json.toList := by
  simp [memberText, apostrophe_mem_quote]

end Json

namespace Mapping

variable {f : Field} {m : Mapping} {ms : List Mapping} {r : Rule} {k : FieldKind} {name s : String}

theorem apostrophe_mem_sampleJson :
    '\'' ∈ (sampleJson ms).toList ↔ ∃ m ∈ ms, '\'' ∈ m.name.toList ∨ '\'' ∈ m.sample.json.toList := by
  have hmembers : '\'' ∈ (", ".intercalate ((pairs ms).map memberText)).toList ↔
      ∃ p ∈ pairs ms, '\'' ∈ (memberText p).toList := by
    constructor
    · intro h
      rcases mem_intercalate h with h | ⟨t, ht, h⟩
      · exact absurd h (by decide)
      · obtain ⟨p, hp, rfl⟩ := List.mem_map.1 ht
        exact ⟨p, hp, h⟩
    · rintro ⟨p, hp, h⟩
      exact mem_intercalate_of_mem (List.mem_map_of_mem hp) h
  rw [sampleJson_eq, String.toList_append, String.toList_append, List.mem_append, List.mem_append, hmembers]
  simp [pairs, apostrophe_mem_memberText, Sample.json]

theorem fitted_subset {key : BoundKey} {limit : Number} {d u : List Char} (h : Sample.IsFitted key limit d u) :
    u ⊆ 'x' :: d := by
  cases h with
  | kept => exact List.subset_cons_self _ _
  | padded k =>
      intro c hc
      rcases List.mem_append.1 hc with hc | hc
      · exact List.mem_cons_of_mem _ hc
      · exact List.eq_of_mem_replicate hc ▸ List.mem_cons_self
  | emptied => exact List.nil_subset _
  | cut _ _ hu => exact List.subset_cons_of_subset _ hu.subset

theorem plain_subset (h : Sample.ofKind k name = .text s) : s.toList ⊆ 'x' :: ("sample_" ++ name).toList := by
  cases k <;> cases h
  exact List.subset_cons_self _ _

theorem sampleFor_text (h : sampleFor r k name = .ok (.text s)) :
    (∃ ls, r.kind = .oneOf ls ∧ s = ls.headD "") ∨ s = "test@example.com" ∨
      s.toList ⊆ 'x' :: ("sample_" ++ name).toList := by
  unfold sampleFor at h
  split at h
  · split at h
    next ls hr =>
      cases h
      exact .inl ⟨ls, hr, rfl⟩
    next =>
      cases h
      exact .inr (.inl rfl)
    next key limit hr =>
      cases k with
      | string =>
          unfold Sample.ofKind Sample.fit at h
          dsimp only at h
          cases hfit : Sample.fitText ("sample_" ++ name) key limit with
          | error e =>
              rw [hfit] at h
              cases h
          | ok t =>
              rw [hfit] at h
              cases h
              exact .inr (.inr (fitted_subset (Sample.fitText_isFitted hfit)))
      | number | boolean | unknown => cases h
    all_goals exact .inr (.inr (plain_subset (Except.ok.inj h)))
  · exact .inr (.inr (plain_subset (Except.ok.inj h)))

theorem sampleFor_oneOf {ls : List String} (hr : r.kind = .oneOf ls) (k : FieldKind) (name : String) :
    sampleFor r k name = .ok (.text (ls.headD "")) := by
  rw [sampleFor, Rule.appliesTo, hr]
  rfl

/-- A field brings an apostrophe into the sample request by its name or by its first literal. -/
theorem apostrophe_mem_member (h : ofField f = .ok m) : '\'' ∈ m.name.toList ∨ '\'' ∈ m.sample.json.toList ↔
    '\'' ∈ f.name.toList ∨ ∃ l ls, m.rule.kind = .oneOf (l :: ls) ∧ '\'' ∈ l.toList := by
  obtain ⟨hrule, hsample, hfield, -⟩ := ofField_ok h
  have hname : m.name = f.name := by rw [name, hfield]
  rw [hname]
  constructor
  · rintro (hmem | hmem)
    · exact .inl hmem
    · cases hs : m.sample with
      | number n =>
          rw [hs] at hmem
          exact absurd hmem (apostrophe_mem_number n)
      | yes | nothing =>
          rw [hs] at hmem
          exact absurd hmem (by decide)
      | text s =>
          rw [hs] at hmem hsample
          have htext : '\'' ∈ s.toList := apostrophe_mem_quote.1 hmem
          rcases sampleFor_text hsample with ⟨ls, hr, rfl⟩ | rfl | hsubset
          · obtain ⟨l, ls, rfl⟩ := List.exists_cons_of_ne_nil (Rule.read_oneOf_ne_nil hrule hr)
            exact .inr ⟨l, ls, hr, htext⟩
          · exact absurd htext (by decide)
          · exact .inl (by simpa using hsubset htext)
  · rintro (hmem | ⟨l, ls, hr, hmem⟩)
    · exact .inl hmem
    · rw [sampleFor_oneOf hr] at hsample
      rw [← Except.ok.inj hsample]
      exact .inr (apostrophe_mem_quote.2 hmem)

end Mapping

end ApiScaffold
