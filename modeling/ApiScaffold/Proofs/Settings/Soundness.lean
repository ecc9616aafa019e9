import ApiScaffold.Proofs.Settings.Reading
import ApiScaffold.Proofs.Text.Trim

namespace ApiScaffold.Settings

/-- A prefix is empty, or it begins with a slash and ends without one. -/
def IsPrefix (t : String) : Prop := t = "" ∨ (t.toList.head? = some '/' ∧ t.toList.getLast? ≠ some '/')

structure IsSound (s : Settings) : Prop where
  node : 1 ≤ s.minNodeVersion
  fields : Field.readSpec s.defaultFields ≠ []
  port : 1 ≤ s.port ∧ s.port ≤ 65535
  host : s.mongodbHost ≠ ""
  pre : IsPrefix s.apiPrefix

/-- The value gives a port: a whole number, or decimal digits of any script. -/
inductive IsPort : Data → Int → Prop
  | number {n : Int} (h : 1 ≤ n ∧ n ≤ 65535) : IsPort (.number (.int n)) n
  | digits {t : String} (hne : t ≠ "") (hdigits : ∀ c ∈ t.toList, Text.isDigit c = true) (hlength : t.length ≤ 4300)
      (h : 1 ≤ Text.digitsValue t.toList ∧ Text.digitsValue t.toList ≤ 65535) :
      IsPort (.str t) (Text.digitsValue t.toList)

variable {d v : Data} {s : Settings} {n : Int} {t : String}

theorem IsPort.range (h : IsPort v n) : 1 ≤ n ∧ n ≤ 65535 := by
  cases h with
  | number h => exact h
  | digits _ _ _ h => omega

theorem portNumeral_eq_ok_iff : portNumeral t = .ok n ↔
    t ≠ "" ∧ (∀ c ∈ t.toList, Text.isDigit c = true) ∧ t.length ≤ 4300 ∧ n = Text.digitsValue t.toList := by
  rw [← String.length_toList, Ne, ← String.toList_eq_nil_iff]
  unfold portNumeral
  dsimp only
  constructor
  · intro h
    split_ifs at h with hform hlong hmixed
    have hwhole : t.toList.takeWhile Text.isDigit = t.toList :=
      (List.takeWhile_prefix _).eq_of_length_le (Nat.le_of_not_lt hmixed)
    rw [hwhole] at h hlong
    rw [Bool.or_eq_true, not_or, List.isEmpty_iff] at hform
    exact ⟨hform.1, List.takeWhile_eq_self_iff.1 hwhole, Nat.le_of_not_lt hlong, (Except.ok.inj h).symm⟩
  · rintro ⟨hne, hdigits, hlength, rfl⟩
    have hlike : t.toList.all Text.isDigitLike = true :=
      List.all_eq_true.2 fun c hc => by rw [Text.isDigitLike, hdigits c hc, Bool.true_or]
    have hlimit : ¬Failure.digitLimit < t.toList.length := Nat.not_lt.2 hlength
    rw [List.takeWhile_eq_self_iff.2 hdigits, hlike, List.isEmpty_eq_false_iff.2 hne, if_neg (by decide),
      if_neg hlimit, if_neg (Nat.lt_irrefl _)]

def inRange (n : Int) : Except Problem Int := if 0 < n && n ≤ 65535 then .ok n else .error (.portRange n)

theorem inRange_eq_ok_iff {m : Int} : inRange m = .ok n ↔ m = n ∧ 1 ≤ n ∧ n ≤ 65535 := by
  unfold inRange
  split
  next h =>
    rw [Bool.and_eq_true, decide_eq_true_eq, decide_eq_true_eq] at h
    exact ⟨fun he => by cases he; exact ⟨rfl, by omega⟩, fun he => by rw [he.1]⟩
  next h =>
    rw [Bool.and_eq_true, decide_eq_true_eq, decide_eq_true_eq] at h
    exact ⟨nofun, fun he => absurd (by omega) h⟩

theorem readPort_eq_ok_iff : readPort v = .ok n ↔ IsPort v n := by
  cases v with
  | str t =>
      have hread : readPort (.str t) = (portNumeral t).bind inRange := rfl
      rw [hread]
      constructor
      · intro h
        cases hnumeral : portNumeral t with
        | error p => rw [hnumeral] at h; cases h
        | ok m =>
            rw [hnumeral] at h
            obtain ⟨rfl, hrange⟩ := inRange_eq_ok_iff.1 h
            obtain ⟨hne, hdigits, hlength, rfl⟩ := portNumeral_eq_ok_iff.1 hnumeral
            exact .digits hne hdigits hlength (by omega)
      · rintro ⟨⟩
        next hne hdigits hlength h =>
          rw [portNumeral_eq_ok_iff.2 ⟨hne, hdigits, hlength, rfl⟩]
          exact inRange_eq_ok_iff.2 ⟨rfl, by omega⟩
  | number x =>
      cases x with
      | int m =>
          have hread : readPort (.number (.int m)) = inRange m := rfl
          rw [hread, inRange_eq_ok_iff]
          constructor
          · rintro ⟨rfl, h⟩
            exact .number h
          · rintro ⟨h⟩
            exact ⟨rfl, h⟩
      | float x => exact ⟨nofun, nofun⟩
  | _ => exact ⟨nofun, nofun⟩

theorem tested_eq_ok_iff {α : Type} {x : Except Problem α} {a : α} (fails : α → Prop) [DecidablePred fails]
    (p : α → Problem) : (do
      let b ← x
      if fails b then throw (p b)
      .ok b) = .ok a ↔ x = .ok a ∧ ¬fails a := by
  cases x with
  | error q => exact ⟨nofun, fun h => nomatch h.1⟩
  | ok b =>
      by_cases hb : fails b
      · simp only [bind, Except.bind, if_pos hb]
        exact ⟨nofun, fun h => absurd (Except.ok.inj h.1 ▸ hb) h.2⟩
      · simp only [bind, Except.bind, if_neg hb]
        exact ⟨fun h => ⟨h, Except.ok.inj h ▸ hb⟩, fun h => h.1⟩

theorem readNodeVersion_eq_ok_iff : readNodeVersion v = .ok n ↔ whole v = .ok n ∧ 1 ≤ n := by
  have hread : readNodeVersion v = .ok n ↔ whole v = .ok n ∧ ¬n < 1 := tested_eq_ok_iff (· < 1) fun _ => .belowOne
  rw [hread, Int.not_lt]

theorem readFilled_eq_ok_iff : readFilled v = .ok t ↔ readText v = .ok t ∧ t ≠ "" :=
  tested_eq_ok_iff (· = "") fun _ => .emptyText

theorem readFields_eq_ok_iff : readFields v = .ok t ↔ readText v = .ok t ∧ Field.readSpec t ≠ [] := by
  have hread : readFields v = .ok t ↔ readFilled v = .ok t ∧ ¬(Field.readSpec t).isEmpty :=
    tested_eq_ok_iff (fun t => (Field.readSpec t).isEmpty) .noFields
  have hempty : Field.readSpec "" = [] := rfl
  rw [hread, readFilled_eq_ok_iff, and_assoc, List.isEmpty_iff]
  refine and_congr_right fun _ => and_iff_right_of_imp fun h he => h ?_
  rw [he, hempty]

theorem readPrefix_eq_ok_iff :
    readPrefix v = .ok t ↔ ∃ given, prefixText v = .ok given ∧ normalPrefix given.shown = t := by
  unfold readPrefix
  cases prefixText v with
  | ok given => exact ⟨fun h => ⟨given, rfl, Except.ok.inj h⟩, fun ⟨_, h, ht⟩ => ht ▸ Except.ok.inj h ▸ rfl⟩
  | error p => exact ⟨nofun, fun ⟨_, h, _⟩ => nomatch h⟩

theorem dropSlashes_isPrefix (cs : List Char) : dropSlashes cs <+: cs := by
  rw [dropSlashes, ← List.reverse_suffix, List.reverse_reverse]
  exact List.dropWhile_suffix _

theorem getLast?_dropSlashes (cs : List Char) : (dropSlashes cs).getLast? ≠ some '/' := by
  intro h
  have hhead := List.head?_dropWhile_not (· == '/') cs.reverse
  rw [dropSlashes, List.getLast?_reverse] at h
  rw [h] at hhead
  cases hhead

theorem isPrefix_normalPrefix (t : String) : IsPrefix (normalPrefix t) := by
  have hlast := getLast?_dropSlashes (Text.strip t.toList)
  unfold normalPrefix IsPrefix
  split
  next => exact .inl rfl
  next c cs h =>
    rw [h] at hlast
    refine .inr ?_
    rw [String.toList_ofList]
    split
    next hc => exact ⟨congrArg some hc, hlast⟩
    next => exact ⟨rfl, by rwa [List.getLast?_cons_cons]⟩

theorem standard_isSound : standard.IsSound where
  node := by decide
  fields := by decide +kernel
  port := by decide
  host := by decide
  pre := .inr (by decide)

theorem Gives.elim {α : Type} {k : Key} {read : Data → Except Problem α} {usual a : α} (P : α → Prop)
    (h : Gives d k read usual a) (husual : P usual) (hread : ∀ v, read v = .ok a → P a) : P a := by
  unfold Gives at h
  split at h
  next => rwa [h]
  next v _ => exact hread v h

theorem IsGiven.isSound (h : IsGiven d s) : s.IsSound where
  node := h.node.elim (1 ≤ ·) standard_isSound.node fun _ hv => (readNodeVersion_eq_ok_iff.1 hv).2
  fields := h.fields.elim (Field.readSpec · ≠ []) standard_isSound.fields fun _ hv => (readFields_eq_ok_iff.1 hv).2
  port := h.port.elim (fun n => 1 ≤ n ∧ n ≤ 65535) standard_isSound.port fun _ hv => (readPort_eq_ok_iff.1 hv).range
  host := h.host.elim (· ≠ "") standard_isSound.host fun _ hv => (readFilled_eq_ok_iff.1 hv).2
  pre := h.pre.elim IsPrefix standard_isSound.pre fun v hv => by
    obtain ⟨t, -, ht⟩ := readPrefix_eq_ok_iff.1 hv
    rw [← ht]
    exact isPrefix_normalPrefix t.shown

theorem IsGiven.isPort (h : IsGiven d s) : ∀ v ∈ d.entry? Key.port.text, IsPort v s.port := by
  intro v hv
  have hgiven := h.port
  rw [Gives, Option.mem_def.1 hv] at hgiven
  exact readPort_eq_ok_iff.1 hgiven

/-- A port is refused just when it gives none. -/
theorem forall_faults_key_ne_port_iff (hv : v ∈ d.entry? Key.port.text) :
    (∀ f ∈ faults d, f.key ≠ some .port) ↔ ∃ n, IsPort v n := by
  cases d with
  | mapping es =>
      have hrefusal : (∃ n, IsPort v n) ↔ refusal? .port v = none := by
        rw [refusal?, problem?_eq_none_iff]
        exact exists_congr fun n => readPort_eq_ok_iff.symm
      rw [hrefusal, faults, List.forall_mem_filterMap]
      constructor
      · intro h
        by_contra hne
        obtain ⟨p, hp⟩ := Option.ne_none_iff_exists'.1 hne
        refine h .port (by decide) ⟨some .port, p, v⟩ ?_ rfl
        rw [faultAt?, Option.mem_def.1 hv, Option.bind_some, hp]
        rfl
      · intro h k _ f hf hkey
        obtain ⟨w, hw, hmap⟩ := Option.bind_eq_some_iff.1 hf
        obtain ⟨p, hp, rfl⟩ := Option.map_eq_some_iff.1 hmap
        obtain rfl := Option.some.inj hkey
        obtain rfl := Option.some.inj (hw.symm.trans hv)
        cases h.symm.trans hp
  | _ => cases hv

/-- Every document gives sound settings, or it is refused with a report of all its faults. The report fails where the
value of a fault has a whole number in it that is too long to be written. A port is let through just when it is a whole
number in range, or a text of at most 4300 decimal digits for one. -/
theorem ofData_sound_or_refused (d : Data) (file : Option String) :
    ((∃ s, ofData d file = .ok s ∧ faults d = [] ∧ s.IsSound ∧ ∀ v ∈ d.entry? Key.port.text, IsPort v s.port) ∨
      faults d ≠ [] ∧ (∀ f ∈ faults d, f.value.isUnwritable = false) ∧
        ofData d file = .error (.reported (report file (faults d))) ∨
      (∃ f ∈ faults d, f.value.isUnwritable = true) ∧ ofData d file = .error .unwritable) ∧
    ∀ v ∈ d.entry? Key.port.text, (∀ f ∈ faults d, f.key ≠ some .port) ↔ ∃ n, IsPort v n := by
  refine ⟨?_, fun v hv => forall_faults_key_ne_port_iff hv⟩
  obtain ⟨s, hs, hnil, hgiven⟩ | ⟨hne, hfaults⟩ := ofData?_cases d
  · left
    have hread : ofData d file = .ok s := by rw [ofData, hs]; rfl
    exact ⟨s, hread, hnil, hgiven.isSound, hgiven.isPort⟩
  · right
    have hread : ofData d file = .error (
        if (faults d).all Fault.isShowable then .reported (report file (faults d)) else .unwritable) := by
      rw [ofData, hfaults]
      rfl
    by_cases hshowable : ∀ f ∈ faults d, f.isShowable = true
    · left
      rw [if_pos (List.all_eq_true.2 hshowable)] at hread
      exact ⟨hne, fun f hf => by simpa [Fault.isShowable] using hshowable f hf, hread⟩
    · right
      rw [if_neg (mt List.all_eq_true.1 hshowable)] at hread
      push Not at hshowable
      obtain ⟨f, hf, hvalue⟩ := hshowable
      exact ⟨⟨f, hf, by simpa [Fault.isShowable] using hvalue⟩, hread⟩

/-- A number of 4301 digits is no prefix, and no report of it can be made. -/
theorem long_number_unreported : ofData (.mapping [(.str "api_prefix", .number (.int (Nat.pow 10 4300)))]) none =
    .error .unwritable := by
  decide +kernel

end ApiScaffold.Settings
