import ApiScaffold.Proofs.Settings.Rereading
import Mathlib.Data.List.Induction

namespace ApiScaffold.Settings

variable {α : Type} {es fs : List (Data × Data)} {d v x : Data} {k l : Key} {file : Option String} {s : Settings}
  {read : Data → Except Problem α} {usual a b : α}

/-- The document that gives a value for one key and nothing else. -/
def alone (k : Key) (v : Data) : Data := .mapping [(.str k.text, v)]

theorem Key.text_inj : k.text = l.text ↔ k = l := by
  refine ⟨fun h => ?_, congrArg Key.text⟩
  cases k <;> cases l <;> first | rfl | exact absurd h (by decide)

theorem entry?_alone (k l : Key) (v : Data) : Data.entry? l.text (alone k v) = if k = l then some v else none := by
  have hentry : Data.entry? l.text (alone k v) = if k.text = l.text then some v else none := rfl
  rw [hentry]
  exact if_congr Key.text_inj rfl rfl

theorem faultAt?_alone (k l : Key) (v : Data) :
    faultAt? (alone k v) l = if k = l then (refusal? k v).map fun p => ⟨some k, p, v⟩ else none := by
  rw [faultAt?, entry?_alone]
  split
  next h => subst h; rfl
  next => rfl

/-- Of a value that is given alone, all that can be wrong is what is wrong with it. -/
theorem faults_alone (k : Key) (v : Data) :
    faults (alone k v) = ((refusal? k v).map fun p => (⟨some k, p, v⟩ : Fault)).toList := by
  have hfaults : faults (alone k v) = Key.all.filterMap (faultAt? (alone k v)) := rfl
  rw [hfaults, List.filterMap_congr fun l _ => faultAt?_alone k l v]
  cases k <;> cases refusal? _ v <;> rfl

/-- The faults of a document are those that its values have alone. -/
theorem mem_faults_iff {f : Fault} : f ∈ faults (.mapping es) ↔
    ∃ k, ∃ v ∈ Data.entry? k.text (.mapping es), f ∈ faults (alone k v) := by
  have hall (k : Key) : k ∈ Key.all := by cases k <;> decide
  have hat (k : Key) : faultAt? (.mapping es) k = some f ↔
      ∃ v ∈ Data.entry? k.text (.mapping es), f ∈ faults (alone k v) := by
    rw [faultAt?, Option.bind_eq_some_iff]
    exact exists_congr fun v => and_congr_right fun _ => by rw [faults_alone, Option.mem_toList]
  rw [faults, List.mem_filterMap]
  simp only [hall, hat, true_and]

theorem ofData_eq_error (h : faults d ≠ []) (file : Option String) : ofData d file = .error (
    if (faults d).all Fault.isShowable then .reported (report file (faults d)) else .unwritable) := by
  obtain ⟨s, -, hnil, -⟩ | ⟨-, hfaults⟩ := ofData?_cases d
  · exact absurd hnil h
  · rw [ofData, hfaults]
    rfl

theorem exists_ofData_eq_ok_iff (file : Option String) : (∃ s, ofData d file = .ok s) ↔ faults d = [] := by
  constructor
  · rintro ⟨s, hs⟩
    by_contra hne
    cases hs.symm.trans (ofData_eq_error hne file)
  · intro hnil
    obtain ⟨s, hs, -, -⟩ | ⟨hne, -⟩ := ofData?_cases d
    · exact ⟨s, by rw [ofData, hs]; rfl⟩
    · exact absurd hnil hne

theorem exists_ofData_eq_error_iff (file : Option String) : (∃ e, ofData d file = .error e) ↔ ∃ f, f ∈ faults d := by
  constructor
  · rintro ⟨e, he⟩
    refine List.exists_mem_of_ne_nil _ fun hnil => ?_
    obtain ⟨s, hs⟩ := (exists_ofData_eq_ok_iff file).2 hnil
    cases he.symm.trans hs
  · rintro ⟨f, hf⟩
    exact ⟨_, ofData_eq_error (List.ne_nil_of_mem hf) file⟩

/-- No report is made just when one of the faults cannot be shown. -/
theorem ofData_eq_unwritable_iff : ofData d file = .error .unwritable ↔ ∃ f ∈ faults d, f.isShowable = false := by
  by_cases hnil : faults d = []
  · obtain ⟨s, hs⟩ := (exists_ofData_eq_ok_iff file).2 hnil
    rw [hs, hnil]
    exact ⟨nofun, nofun⟩
  · rw [ofData_eq_error hnil]
    split
    next hall =>
      rw [List.all_eq_true] at hall
      exact ⟨nofun, fun ⟨f, hf, hfalse⟩ => absurd (hall f hf) (by simp [hfalse])⟩
    next hall =>
      refine ⟨fun _ => ?_, fun _ => rfl⟩
      simpa using hall

/-- What is read of a value for a key, as a document shows it. -/
def readValue : Key → Data → Except Problem Data
  | .minNodeVersion, v => (readNodeVersion v).map fun n => .number (.int n)
  | .defaultFields, v => (readFields v).map .str
  | .port, v => (readPort v).map fun n => .number (.int n)
  | .mongodbHost, v => (readFilled v).map .str
  | .apiPrefix, v => (readPrefix v).map .str
  | .installDependencies, v | .checkEnvironment, v => (readFlag v).map .bool

theorem gives_alone_iff : Gives (alone k v) k read usual a ↔ read v = .ok a := by
  rw [Gives, entry?_alone, if_pos rfl]

theorem gives_map_iff {f : α → Data} (hf : f.Injective) :
    Gives d k (fun v => (read v).map f) (f usual) (f a) ↔ Gives d k read usual a := by
  unfold Gives
  cases d.entry? k.text with
  | none => exact hf.eq_iff
  | some v =>
      dsimp only
      cases read v with
      | error p => exact ⟨nofun, nofun⟩
      | ok b => exact ⟨fun h => congrArg _ (hf (Except.ok.inj h)), fun h => congrArg _ (congrArg f (Except.ok.inj h))⟩

def GivesValue (d : Data) (k : Key) (x : Data) : Prop := Gives d k (readValue k) (standard.value k) x

theorem isGiven_iff : IsGiven d s ↔ ∀ k, GivesValue d k (s.value k) := by
  have hint : Function.Injective fun n : Int => Data.number (.int n) := fun _ _ h => by cases h; rfl
  have hstr : Function.Injective Data.str := fun _ _ h => by cases h; rfl
  have hbool : Function.Injective Data.bool := fun _ _ h => by cases h; rfl
  constructor
  · rintro ⟨hnode, hfields, hport, hhost, hpre, hinstall, hcheck⟩ k
    cases k with
    | minNodeVersion => exact (gives_map_iff hint).2 hnode
    | defaultFields => exact (gives_map_iff hstr).2 hfields
    | port => exact (gives_map_iff hint).2 hport
    | mongodbHost => exact (gives_map_iff hstr).2 hhost
    | apiPrefix => exact (gives_map_iff hstr).2 hpre
    | installDependencies => exact (gives_map_iff hbool).2 hinstall
    | checkEnvironment => exact (gives_map_iff hbool).2 hcheck
  · intro h
    exact ⟨(gives_map_iff hint).1 (h .minNodeVersion), (gives_map_iff hstr).1 (h .defaultFields),
      (gives_map_iff hint).1 (h .port), (gives_map_iff hstr).1 (h .mongodbHost), (gives_map_iff hstr).1 (h .apiPrefix),
      (gives_map_iff hbool).1 (h .installDependencies), (gives_map_iff hbool).1 (h .checkEnvironment)⟩

theorem ofData_eq_ok_iff : ofData (.mapping es) file = .ok s ↔ IsGiven (.mapping es) s := by
  refine ⟨isGiven_of_ofData, fun h => ?_⟩
  rw [ofData, ofData?, readMapping_eq_ok_iff.2 h]
  rfl

theorem refusal?_eq (k : Key) (v : Data) : refusal? k v = problem? (readValue k v) := by
  have hmap {α : Type} (r : Except Problem α) (f : α → Data) : problem? r = problem? (r.map f) := by
    cases r <;> rfl
  cases k <;> exact hmap _ _

theorem readValue_eq_ok_iff :
    readValue k v = .ok x ↔ ∃ t, ofData (alone k v) file = .ok t ∧ t.value k = x := by
  have hvalue {t : Settings} (ht : ofData (alone k v) file = .ok t) : readValue k v = .ok (t.value k) :=
    gives_alone_iff.1 (isGiven_iff.1 (ofData_eq_ok_iff.1 ht) k)
  constructor
  · intro h
    have hnil : faults (alone k v) = [] := by
      rw [faults_alone, refusal?_eq, h]
      rfl
    obtain ⟨t, ht⟩ := (exists_ofData_eq_ok_iff file).2 hnil
    exact ⟨t, ht, Except.ok.inj ((hvalue ht).symm.trans h)⟩
  · rintro ⟨t, ht, rfl⟩
    exact hvalue ht

def Key.ofData? : Data → Option Key
  | .str t => Key.all.find? fun k => k.text = t
  | _ => none

theorem Key.ofData?_eq_some_iff : Key.ofData? d = some k ↔ d = .str k.text := by
  constructor
  · intro h
    cases d with
    | str t =>
        have hfound : decide (k.text = t) = true := List.find?_some (p := fun k : Key => decide (k.text = t)) h
        exact congrArg Data.str (of_decide_eq_true hfound).symm
    | _ => cases h
  · rintro rfl
    cases k <;> rfl

def known (es : List (Data × Data)) : List (Key × Data) := es.filterMap fun e => (Key.ofData? e.1).map (·, e.2)

theorem known_concat (es : List (Data × Data)) (e : Data × Data) :
    known (es ++ [e]) = known es ++ ((Key.ofData? e.1).map (·, e.2)).toList := by
  rw [known, List.filterMap_append]
  cases h : Key.ofData? e.1 <;> simp [known, h]

theorem entry?_concat (es : List (Data × Data)) (e : Data × Data) (k : Key) :
    Data.entry? k.text (.mapping (es ++ [e])) =
      if Key.ofData? e.1 = some k then some e.2 else Data.entry? k.text (.mapping es) := by
  rw [Data.entry?, Data.entry?, List.foldl_append, List.foldl_cons, List.foldl_nil]
  obtain ⟨name, v⟩ := e
  cases name with
  | str t => exact if_congr (by rw [Key.ofData?_eq_some_iff, Data.str.injEq]) rfl rfl
  | _ => rfl

theorem entry?_eq_some_iff (h : ((known es).map Prod.fst).Nodup) (k : Key) :
    Data.entry? k.text (.mapping es) = some v ↔ (k, v) ∈ known es := by
  induction es using List.reverseRecOn with
  | nil => exact ⟨nofun, nofun⟩
  | append_singleton es e ih =>
      rw [known_concat, List.map_append, List.nodup_append] at h
      obtain ⟨hnodup, -, hnew⟩ := h
      rw [entry?_concat, known_concat, List.mem_append]
      cases hkey : Key.ofData? e.1 with
      | none => simpa using ih hnodup
      | some l =>
          by_cases hl : l = k
          · subst hl
            have hold (w : Data) : (l, w) ∉ known es :=
              fun hw => hnew l (List.mem_map.2 ⟨_, hw, rfl⟩) l (by simp [hkey]) rfl
            simp [hold, eq_comm]
          · rw [if_neg fun he => hl (Option.some.inj he), ih hnodup]
            simp [Ne.symm hl]

theorem entry?_perm (hnodup : ((known es).map Prod.fst).Nodup) (h : (known fs).Perm (known es)) (k : Key) :
    Data.entry? k.text (.mapping fs) = Data.entry? k.text (.mapping es) := by
  have hnodup' : ((known fs).map Prod.fst).Nodup := (h.map Prod.fst).nodup_iff.2 hnodup
  refine Option.ext fun v => ?_
  rw [entry?_eq_some_iff hnodup, entry?_eq_some_iff hnodup', h.mem_iff]

/-- The value is what the document gives for the key, as it is read where it is given alone, or else the standard
one. -/
def GivesAlone (file : Option String) (es : List (Data × Data)) (k : Key) (x : Data) : Prop :=
  match Data.entry? k.text (.mapping es) with
  | none => x = standard.value k
  | some v => ∃ t, ofData (alone k v) file = .ok t ∧ t.value k = x

/-- What is told of a key is what a document is refused with that gives its value alone. Nothing is told when there is
no value, or settings are read of it. -/
def Tells (file : Option String) (es : List (Data × Data)) (k : Key) : Option String → Prop
  | none => ∀ v ∈ Data.entry? k.text (.mapping es), ∃ t, ofData (alone k v) file = .ok t
  | some p => ∃ v ∈ Data.entry? k.text (.mapping es),
      ofData (alone k v) file = .error (.reported (.configuration ("Invalid configuration: " ++ p) file))

theorem givesAlone_iff : GivesAlone file es k x ↔ GivesValue (.mapping es) k x := by
  unfold GivesAlone GivesValue Gives
  cases Data.entry? k.text (.mapping es) with
  | none => rfl
  | some v => exact readValue_eq_ok_iff.symm

theorem tells_faultAt? (h : ∀ f ∈ faults (.mapping es), f.isShowable = true) (k : Key) :
    Tells file es k ((faultAt? (.mapping es) k).map Fault.message) := by
  cases hat : faultAt? (.mapping es) k with
  | none =>
      intro v hv
      refine (exists_ofData_eq_ok_iff file).2 ?_
      rw [faultAt?, Option.mem_def.1 hv, Option.bind_some, Option.map_eq_none_iff] at hat
      rw [faults_alone, hat]
      rfl
  | some f =>
      obtain ⟨v, hv, hf⟩ := Option.bind_eq_some_iff.1 hat
      have hfaults : faults (alone k v) = [f] := by rw [faults_alone, hf]; rfl
      have hshowable : f.isShowable = true := h f (mem_faults_iff.2 ⟨k, v, hv, by simp [hfaults]⟩)
      refine ⟨v, hv, ?_⟩
      rw [ofData_eq_error (by simp [hfaults]), hfaults, if_pos (by simpa using hshowable), report, List.map_singleton,
        String.intercalate_singleton]

/-- Settings are read key by key. A document gives what its values give alone, and is refused just when one of them is.
All refusals are told together, in the order of the keys, except where one of them cannot be reported, since a whole
number in its value is too long to be written: then no report is made. Unknown keys and the order make no difference. -/
theorem ofData_key_by_key (es : List (Data × Data)) (file : Option String) :
    (∀ s, ofData (.mapping es) file = .ok s ↔ ∀ k, GivesAlone file es k (s.value k)) ∧
    ((∃ e, ofData (.mapping es) file = .error e) ↔
      ∃ k, ∃ v ∈ Data.entry? k.text (.mapping es), ∃ e, ofData (alone k v) file = .error e) ∧
    (ofData (.mapping es) file = .error .unwritable ↔
      ∃ k, ∃ v ∈ Data.entry? k.text (.mapping es), ofData (alone k v) file = .error .unwritable) ∧
    (∀ e, ofData (.mapping es) file = .error e → e = .unwritable ∨
      ∃ told : Key → Option String, (∀ k, Tells file es k (told k)) ∧
        e = .reported (.configuration ("Invalid configuration: " ++ "; ".intercalate (Key.all.filterMap told)) file)) ∧
    ∀ fs, ((known es).map Prod.fst).Nodup → (known fs).Perm (known es) →
      ofData (.mapping fs) file = ofData (.mapping es) file := by
  refine ⟨fun s => ?_, ?_, ?_, fun e he => ?_, fun fs hnodup hperm => ?_⟩
  · rw [ofData_eq_ok_iff, isGiven_iff]
    exact forall_congr' fun k => givesAlone_iff.symm
  · simp only [exists_ofData_eq_error_iff, mem_faults_iff]
    exact ⟨fun ⟨f, k, v, hv, hf⟩ => ⟨k, v, hv, f, hf⟩, fun ⟨k, v, hv, f, hf⟩ => ⟨f, k, v, hv, hf⟩⟩
  · simp only [ofData_eq_unwritable_iff, mem_faults_iff]
    exact ⟨fun ⟨f, ⟨k, v, hv, hf⟩, hfalse⟩ => ⟨k, v, hv, f, hf, hfalse⟩,
      fun ⟨k, v, hv, f, hf, hfalse⟩ => ⟨f, ⟨k, v, hv, hf⟩, hfalse⟩⟩
  · obtain ⟨f, hf⟩ := (exists_ofData_eq_error_iff file).1 ⟨e, he⟩
    rw [ofData_eq_error (List.ne_nil_of_mem hf)] at he
    split at he
    next hall =>
      refine .inr ⟨_, tells_faultAt? (List.all_eq_true.1 hall), ?_⟩
      rw [← Except.error.inj he, report, faults, List.map_filterMap]
    next => exact .inl (Except.error.inj he).symm
  · rw [ofData, ofData, ofData?, ofData?, readMapping_congr (entry?_perm hnodup hperm)]

/-- Two orders, and a key that is not known. -/
theorem ofData_key_by_key_reordered :
    ofData (.mapping [(.str "api_prefix", .str "v1"), (.str "port", .str "8080")]) none =
        ofData (.mapping [(.str "port", .str "8080"), (.str "colour", .null), (.str "api_prefix", .str "v1")]) none ∧
      ofData (.mapping [(.str "port", .str "8080"), (.str "colour", .null), (.str "api_prefix", .str "v1")]) none =
        .ok { standard with port := 8080, apiPrefix := "/v1" } := by
  refine ⟨?_, by decide +kernel⟩
  refine (ofData_key_by_key [(.str "port", .str "8080"), (.str "colour", .null), (.str "api_prefix", .str "v1")]
    none).2.2.2.2 _ ?_ ?_
  · decide
  · exact List.Perm.swap (Key.port, Data.str "8080") (Key.apiPrefix, Data.str "v1") []

/-- What is wrong with the port is not told when a long number is given for the prefix. -/
theorem long_number_hides_port :
    ofData (alone .port (.number (.int 0))) none = .error (.reported (.configuration
        "Invalid configuration: port: Value error, Port must be between 1 and 65535, got 0" none)) ∧
      ofData (.mapping [(.str "port", .number (.int 0)), (.str "api_prefix", .number (.int (Nat.pow 10 4300)))]) none =
        .error .unwritable := by
  decide +kernel

end ApiScaffold.Settings
