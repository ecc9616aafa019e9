import ApiScaffold.Proofs.Settings.Soundness

namespace ApiScaffold.Settings

def value (s : Settings) : Key → Data
  | .minNodeVersion => .number (.int s.minNodeVersion)
  | .defaultFields => .str s.defaultFields
  | .port => .number (.int s.port)
  | .mongodbHost => .str s.mongodbHost
  | .apiPrefix => .str s.apiPrefix
  | .installDependencies => .bool s.installDependencies
  | .checkEnvironment => .bool s.checkEnvironment

def data (s : Settings) : Data := .mapping (Key.all.map fun k => (.str k.text, s.value k))

variable {α : Type} {d : Data} {s : Settings} {read : Data → Except Problem α} {usual a : α} {t : String}
  {cs : List Char}

theorem entry?_data (s : Settings) (k : Key) : s.data.entry? k.text = some (s.value k) := by
  cases k <;> rfl

theorem gives_data {k : Key} (h : read (s.value k) = .ok a) : Gives s.data k read usual a := by
  rw [Gives, entry?_data]
  exact h

theorem IsSound.isGiven_data (h : s.IsSound) : IsGiven s.data { s with apiPrefix := normalPrefix s.apiPrefix } where
  node := gives_data (readNodeVersion_eq_ok_iff.2 ⟨rfl, h.node⟩)
  fields := gives_data (readFields_eq_ok_iff.2 ⟨rfl, h.fields⟩)
  port := gives_data (readPort_eq_ok_iff.2 (.number h.port))
  host := gives_data (readFilled_eq_ok_iff.2 ⟨rfl, h.host⟩)
  pre := gives_data (readPrefix_eq_ok_iff.2 ⟨_, rfl, rfl⟩)
  install := gives_data rfl
  check := gives_data rfl

theorem dropSlashes_of_getLast? (h : cs.getLast? ≠ some '/') : dropSlashes cs = cs := by
  rw [← List.head?_reverse] at h
  rw [dropSlashes]
  cases hcs : cs.reverse with
  | nil => rw [List.reverse_eq_nil_iff.1 hcs]; rfl
  | cons c rest =>
      rw [hcs, List.head?_cons] at h
      have hslash : ¬(c == '/') = true := fun hc => h (congrArg some (eq_of_beq hc))
      rw [List.dropWhile_cons_of_neg (p := (· == '/')) hslash, ← hcs, List.reverse_reverse]

theorem toList_normalPrefix (h : ∀ c ∈ (dropSlashes (Text.strip t.toList)).head?, c = '/') :
    (normalPrefix t).toList = dropSlashes (Text.strip t.toList) := by
  unfold normalPrefix
  split
  next hnil => rw [hnil]; rfl
  next c cs hcons =>
    rw [hcons] at h
    rw [hcons, if_pos (h c rfl), String.toList_ofList]

theorem IsPrefix.head (h : IsPrefix t) : ∀ c ∈ t.toList.head?, c = '/' := by
  obtain rfl | ⟨hhead, -⟩ := h
  · nofun
  · intro c hc
    exact Option.some.inj (hc.symm.trans hhead)

theorem IsPrefix.last (h : IsPrefix t) : t.toList.getLast? ≠ some '/' := by
  obtain rfl | ⟨-, hlast⟩ := h
  · nofun
  · exact hlast

theorem IsPrefix.strip_eq (h : IsPrefix t) : Text.strip t.toList = Text.stripEnd t.toList := by
  rw [Text.strip, Text.stripStart_of_head]
  intro c hc
  rw [h.head c hc]
  rfl

/-- A prefix is left alone just when no blank is at its end. -/
theorem IsPrefix.normalPrefix_eq_self_iff (h : IsPrefix t) :
    normalPrefix t = t ↔ ∀ c ∈ t.toList.getLast?, Text.isBlank c = false := by
  have hstrip := h.strip_eq
  have hshort : dropSlashes (Text.strip t.toList) <+: t.toList := by
    rw [hstrip]
    exact (dropSlashes_isPrefix _).trans (Text.stripEnd_isPrefix _)
  have hlist : (normalPrefix t).toList = dropSlashes (Text.strip t.toList) := by
    refine toList_normalPrefix fun c hc => h.head c ?_
    obtain ⟨rest, hrest⟩ := hshort
    rw [← hrest]
    exact List.mem_head?_append_of_mem_head? hc
  rw [← String.toList_inj, hlist]
  constructor
  · intro heq
    have htrim := Text.isTrimmed_strip t.toList
    have hle := (dropSlashes_isPrefix (Text.strip t.toList)).length_le
    rw [heq, hstrip] at hle
    rw [hstrip, (Text.stripEnd_isPrefix _).eq_of_length_le hle] at htrim
    exact htrim.last
  · intro hlast
    have htrim : Text.IsTrimmed t.toList := ⟨fun c hc => by rw [h.head c hc]; rfl, hlast⟩
    rw [htrim.strip_eq, dropSlashes_of_getLast? h.last]

/-- Settings that were read are read again from their own document. The prefix alone may change: all of them come back
as they are just when no blank is at the end of it. -/
theorem ofData_data {file : Option String} (h : ofData d file = .ok s) (again : Option String) :
    ofData s.data again = .ok { s with apiPrefix := normalPrefix s.apiPrefix } ∧
      (ofData s.data again = .ok s ↔ ∀ c ∈ s.apiPrefix.toList.getLast?, Text.isBlank c = false) := by
  have hsound : s.IsSound := (isGiven_of_ofData h).isSound
  have hread : ofData s.data again = .ok { s with apiPrefix := normalPrefix s.apiPrefix } := by
    rw [ofData, data, ofData?, ← data, readMapping_eq_ok_iff.2 hsound.isGiven_data]
    rfl
  refine ⟨hread, ?_⟩
  rw [hread, ← hsound.pre.normalPrefix_eq_self_iff]
  constructor
  · intro heq
    exact congrArg apiPrefix (Except.ok.inj heq)
  · intro heq
    rw [heq]

theorem ofData_data_versioned :
    (ofData (.mapping [(.str "api_prefix", .str " v2/")]) none = .ok { standard with apiPrefix := "/v2" }) ∧
      ofData { standard with apiPrefix := "/v2" }.data none = .ok { standard with apiPrefix := "/v2" } := by
  have h : ofData (.mapping [(.str "api_prefix", .str " v2/")]) none = .ok { standard with apiPrefix := "/v2" } := by
    decide +kernel
  refine ⟨h, (ofData_data h none).2.2 fun c hc => ?_⟩
  obtain rfl : '2' = c := Option.some.inj hc
  rfl

/-- The blank before a dropped slash is itself dropped when the settings are read again. -/
theorem prefix_read_twice :
    (ofData (.mapping [(.str "api_prefix", .str "a /")]) none = .ok { standard with apiPrefix := "/a " }) ∧
      ofData { standard with apiPrefix := "/a " }.data none = .ok { standard with apiPrefix := "/a" } := by
  decide +kernel

end ApiScaffold.Settings
