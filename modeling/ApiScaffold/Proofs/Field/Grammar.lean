import ApiScaffold.Proofs.Field.Rule
import ApiScaffold.Proofs.Text.Segment

namespace ApiScaffold.Rule

variable {cs payload : List Char} {kind : Kind} {ls : List String} {token : String} {r : Rule}

/-- The texts of every kind of rule but the unknown one. The literals of an enumeration are the segments between the
bars, and what follows the key of a bound is a number from end to end. -/
inductive Spells : List Char → Kind → Prop
  | absent : Spells [] .absent
  | email : Spells "email".toList .email
  | oneOf {payload : List Char} {ls : List String} (hmember : ∃ c ∈ payload, c ≠ '|')
      (hls : Text.AreSegments '|' payload (ls.map String.toList)) : Spells ("enum=".toList ++ payload) (.oneOf ls)
  | bound (key : BoundKey) {payload : List Char} {limit : Number}
      (h : Number.Denotes (Text.strip payload) limit) : Spells (key.token ++ '=' :: payload) (.bound key limit)

theorem areSegments_literals (payload : List Char) :
    Text.AreSegments '|' payload ((literals payload).map String.toList) := by
  have htext : (literals payload).map String.toList = (payload.splitOn '|').filter fun l => !l.isEmpty := by
    rw [literals, List.map_map]
    exact (List.map_congr_left fun l _ => String.toList_ofList).trans (List.map_id _)
  rw [htext]
  exact Text.areSegments_splitOn '|' payload

theorem literals_ne_nil_iff : literals payload ≠ [] ↔ ∃ c ∈ payload, c ≠ '|' := by
  rw [Ne, ← List.map_eq_nil_iff, (areSegments_literals payload).eq_nil_iff]
  simp

theorem literals_eq (h : Text.AreSegments '|' payload (ls.map String.toList)) : literals payload = ls :=
  List.map_injective_iff.2 (fun _ _ => String.toList_inj.1) ((areSegments_literals payload).unique h)

theorem Spells.means (hshort : ¬∃ n, IsOverlong cs n) (h : Spells cs kind) : Means cs kind := by
  cases h with
  | absent => exact .absent rfl
  | email => exact .email rfl
  | oneOf hmember hls =>
      have hliterals := literals_eq hls
      exact .oneOf rfl hliterals (hliterals ▸ literals_ne_nil_iff.2 hmember)
  | bound key h => exact (means_bound_iff hshort).2 ⟨_, rfl, h⟩

theorem Means.spells (h : Means cs kind) (hkind : kind ≠ .unknown) : Spells cs kind := by
  cases h with
  | absent h => exact h ▸ .absent
  | email h => exact h ▸ .email
  | bound h hread => exact h ▸ .bound _ (Number.read?_eq_some_iff.1 hread).1
  | oneOf h hls hne =>
      subst h hls
      exact .oneOf (literals_ne_nil_iff.1 hne) (areSegments_literals _)
  | noMark | noLiteral | noNumber | noKey => exact absurd rfl hkind

theorem Spells.ne_unknown (h : Spells cs kind) : kind ≠ .unknown := by cases h <;> nofun

theorem exists_spells_oneOf : (∃ ls, Spells cs (.oneOf ls)) ↔
    ∃ payload, cs = "enum=".toList ++ payload ∧ ∃ c ∈ payload, c ≠ '|' := by
  constructor
  · rintro ⟨ls, h⟩
    cases h with
    | oneOf hmember hls => exact ⟨_, rfl, hmember⟩
  · rintro ⟨payload, rfl, hmember⟩
    exact ⟨literals payload, .oneOf hmember (areSegments_literals payload)⟩

theorem kind_eq_iff (h : read token = .ok r) (hknown : kind ≠ .unknown) :
    r.kind = kind ↔ Spells (Text.strip token.toList) kind := by
  obtain ⟨hmeans, -⟩ := read_eq_ok_iff.1 h
  refine ⟨fun he => (he ▸ hmeans).spells hknown, fun hspells => hmeans.unique (hspells.means ?_)⟩
  rintro ⟨n, hlong⟩
  rw [read_eq_error_iff.2 ⟨n, hlong, rfl⟩] at h
  cases h

/-- A rule that is read has the kind that the grammar spells with its text. It is unknown where the grammar spells none,
and keeps its trimmed text in any case. -/
theorem read_grammar (h : read token = .ok r) :
    r.token.toList = Text.strip token.toList ∧
      (∀ kind, kind ≠ .unknown → (r.kind = kind ↔ Spells (Text.strip token.toList) kind)) ∧
      ((∃ ls, r.kind = .oneOf ls) ↔
        ∃ payload, Text.strip token.toList = "enum=".toList ++ payload ∧ ∃ c ∈ payload, c ≠ '|') ∧
      (r.kind = .unknown ↔ ∀ kind, ¬Spells (Text.strip token.toList) kind) := by
  obtain ⟨hmeans, htoken⟩ := read_eq_ok_iff.1 h
  refine ⟨by rw [htoken, Text.trim, String.toList_ofList], fun kind => kind_eq_iff h, ?_, fun he kind hspells => ?_,
    fun hnone => ?_⟩
  · rw [← exists_spells_oneOf]
    exact exists_congr fun ls => kind_eq_iff h nofun
  · exact hspells.ne_unknown (((kind_eq_iff h hspells.ne_unknown).2 hspells).symm.trans he)
  · by_contra hknown
    exact hnone r.kind (hmeans.spells hknown)

/-- Bars on end give no literal, and blanks are taken off only around the whole of a rule. -/
theorem read_grammar_choice :
    let token := " enum=|a||b = c \n"
    let r : Rule := ⟨"enum=|a||b = c", .oneOf ["a", "b = c"]⟩
    read token = .ok r ∧ r.token.toList = Text.strip token.toList ∧
      (∀ kind, kind ≠ .unknown → (r.kind = kind ↔ Spells (Text.strip token.toList) kind)) ∧
      ((∃ ls, r.kind = .oneOf ls) ↔
        ∃ payload, Text.strip token.toList = "enum=".toList ++ payload ∧ ∃ c ∈ payload, c ≠ '|') ∧
      (r.kind = .unknown ↔ ∀ kind, ¬Spells (Text.strip token.toList) kind) := by
  intro token r
  have hread : read token = .ok r := by decide +kernel
  exact ⟨hread, read_grammar hread⟩

end ApiScaffold.Rule
