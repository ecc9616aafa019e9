import ApiScaffold.Settings.Reading
import Mathlib.Data.List.Basic

namespace ApiScaffold.Settings

variable {α : Type} {k : Key} {d v : Data} {s : Settings} {read : Data → Except Problem α} {a usual : α}

def problem? (r : Except Problem α) : Option Problem :=
  match r with
  | .ok _ => none
  | .error p => some p

theorem problem?_eq_none_iff {r : Except Problem α} : problem? r = none ↔ ∃ a, r = .ok a := by
  cases r with
  | ok a => exact ⟨fun _ => ⟨a, rfl⟩, fun _ => rfl⟩
  | error p => exact ⟨nofun, nofun⟩

def refusal? : Key → Data → Option Problem
  | .minNodeVersion, v => problem? (readNodeVersion v)
  | .defaultFields, v => problem? (readFields v)
  | .port, v => problem? (readPort v)
  | .mongodbHost, v => problem? (readFilled v)
  | .apiPrefix, v => problem? (readPrefix v)
  | .installDependencies, v | .checkEnvironment, v => problem? (readFlag v)

def faultAt? (d : Data) (k : Key) : Option Fault :=
  (d.entry? k.text).bind fun v => (refusal? k v).map fun p => ⟨some k, p, v⟩

def faults : Data → List Fault
  | .mapping es => Key.all.filterMap (faultAt? (.mapping es))
  | d => [⟨none, .notMapping, d⟩]

/-- The document gives the value for the key, or nothing for it and the value is the usual one. -/
def Gives (d : Data) (k : Key) (read : Data → Except Problem α) (usual a : α) : Prop :=
  match d.entry? k.text with
  | none => a = usual
  | some v => read v = .ok a

theorem setting_eq_ok_iff : setting k read usual d = .ok a ↔ Gives d k read usual a := by
  unfold setting Gives
  cases d.entry? k.text with
  | none => exact ⟨fun h => (Except.ok.inj h).symm, fun h => congrArg Except.ok h.symm⟩
  | some v =>
      dsimp only
      cases read v with
      | ok b => exact ⟨fun h => congrArg Except.ok (Except.ok.inj h), fun h => congrArg Except.ok (Except.ok.inj h)⟩
      | error p => exact ⟨nofun, nofun⟩

theorem faultOf_setting (h : refusal? k = fun v => problem? (read v)) :
    faultOf (setting k read usual d) = (faultAt? d k).toList := by
  unfold setting faultAt?
  cases d.entry? k.text with
  | none => rfl
  | some v =>
      rw [Option.bind_some, h]
      dsimp only
      cases read v <;> rfl

theorem exists_of_faultOf {r : Except Fault α} (h : faultOf r = []) : ∃ a, r = .ok a := by
  cases r with
  | ok a => exact ⟨a, rfl⟩
  | error f => cases h

theorem readMapping_congr {d d' : Data} (h : ∀ k : Key, d.entry? k.text = d'.entry? k.text) :
    readMapping d = readMapping d' := by
  unfold readMapping
  simp only [setting, h]

structure IsGiven (d : Data) (s : Settings) : Prop where
  node : Gives d .minNodeVersion readNodeVersion standard.minNodeVersion s.minNodeVersion
  fields : Gives d .defaultFields readFields standard.defaultFields s.defaultFields
  port : Gives d .port readPort standard.port s.port
  host : Gives d .mongodbHost readFilled standard.mongodbHost s.mongodbHost
  pre : Gives d .apiPrefix readPrefix standard.apiPrefix s.apiPrefix
  install : Gives d .installDependencies readFlag standard.installDependencies s.installDependencies
  check : Gives d .checkEnvironment readFlag standard.checkEnvironment s.checkEnvironment

theorem readMapping_eq_ok_iff : readMapping d = .ok s ↔ IsGiven d s := by
  unfold readMapping
  constructor
  · intro h
    dsimp only at h
    split at h
    next hnode hfields hport hhost hpre hinstall hcheck =>
      obtain rfl := Except.ok.inj h
      exact ⟨setting_eq_ok_iff.1 hnode, setting_eq_ok_iff.1 hfields, setting_eq_ok_iff.1 hport,
        setting_eq_ok_iff.1 hhost, setting_eq_ok_iff.1 hpre, setting_eq_ok_iff.1 hinstall,
        setting_eq_ok_iff.1 hcheck⟩
    next => cases h
  · intro h
    rw [setting_eq_ok_iff.2 h.node, setting_eq_ok_iff.2 h.fields, setting_eq_ok_iff.2 h.port,
      setting_eq_ok_iff.2 h.host, setting_eq_ok_iff.2 h.pre, setting_eq_ok_iff.2 h.install,
      setting_eq_ok_iff.2 h.check]

theorem faults_mapping (es : List (Data × Data)) : faults (.mapping es) =
    faultOf (setting .minNodeVersion readNodeVersion standard.minNodeVersion (.mapping es)) ++
    faultOf (setting .defaultFields readFields standard.defaultFields (.mapping es)) ++
    faultOf (setting .port readPort standard.port (.mapping es)) ++
    faultOf (setting .mongodbHost readFilled standard.mongodbHost (.mapping es)) ++
    faultOf (setting .apiPrefix readPrefix standard.apiPrefix (.mapping es)) ++
    faultOf (setting .installDependencies readFlag standard.installDependencies (.mapping es)) ++
    faultOf (setting .checkEnvironment readFlag standard.checkEnvironment (.mapping es)) := by
  rw [faultOf_setting rfl, faultOf_setting rfl, faultOf_setting rfl, faultOf_setting rfl, faultOf_setting rfl,
    faultOf_setting rfl, faultOf_setting rfl, faults, List.filterMap_eq_flatMap_toList]
  simp [Key.all]

theorem readMapping_eq_error {es : List (Data × Data)} {fs : List Fault} (h : readMapping (.mapping es) = .error fs) :
    fs = faults (.mapping es) := by
  rw [faults_mapping]
  unfold readMapping at h
  dsimp only at h
  split at h
  next => cases h
  next => exact (Except.error.inj h).symm

theorem faults_eq_nil_iff (es : List (Data × Data)) : faults (.mapping es) = [] ↔ ∃ s, IsGiven (.mapping es) s := by
  rw [faults_mapping]
  simp only [List.append_eq_nil_iff]
  constructor
  · rintro ⟨⟨⟨⟨⟨⟨hnode, hfields⟩, hport⟩, hhost⟩, hpre⟩, hinstall⟩, hcheck⟩
    obtain ⟨node, hnode⟩ := exists_of_faultOf hnode
    obtain ⟨fields, hfields⟩ := exists_of_faultOf hfields
    obtain ⟨port, hport⟩ := exists_of_faultOf hport
    obtain ⟨host, hhost⟩ := exists_of_faultOf hhost
    obtain ⟨pre, hpre⟩ := exists_of_faultOf hpre
    obtain ⟨install, hinstall⟩ := exists_of_faultOf hinstall
    obtain ⟨check, hcheck⟩ := exists_of_faultOf hcheck
    exact ⟨⟨node, fields, port, host, pre, install, check⟩, setting_eq_ok_iff.1 hnode, setting_eq_ok_iff.1 hfields,
      setting_eq_ok_iff.1 hport, setting_eq_ok_iff.1 hhost, setting_eq_ok_iff.1 hpre, setting_eq_ok_iff.1 hinstall,
      setting_eq_ok_iff.1 hcheck⟩
  · rintro ⟨s, h⟩
    rw [setting_eq_ok_iff.2 h.node, setting_eq_ok_iff.2 h.fields, setting_eq_ok_iff.2 h.port,
      setting_eq_ok_iff.2 h.host, setting_eq_ok_iff.2 h.pre, setting_eq_ok_iff.2 h.install,
      setting_eq_ok_iff.2 h.check]
    exact ⟨⟨⟨⟨⟨⟨rfl, rfl⟩, rfl⟩, rfl⟩, rfl⟩, rfl⟩, rfl⟩

theorem ofData?_cases (d : Data) :
    (∃ s, ofData? d = .ok s ∧ faults d = [] ∧ IsGiven d s) ∨ (faults d ≠ [] ∧ ofData? d = .error (faults d)) := by
  cases d with
  | mapping es =>
      cases h : readMapping (.mapping es) with
      | ok s =>
          have hgiven := readMapping_eq_ok_iff.1 h
          exact .inl ⟨s, h, (faults_eq_nil_iff es).2 ⟨s, hgiven⟩, hgiven⟩
      | error fs =>
          obtain rfl := readMapping_eq_error h
          refine .inr ⟨fun hnil => ?_, h⟩
          obtain ⟨s, hs⟩ := (faults_eq_nil_iff es).1 hnil
          cases h.symm.trans (readMapping_eq_ok_iff.2 hs)
  | _ => exact .inr ⟨List.cons_ne_nil _ _, rfl⟩

theorem isGiven_of_ofData {file : Option String} (h : ofData d file = .ok s) : IsGiven d s := by
  obtain ⟨s', hs, -, hgiven⟩ | ⟨-, hfaults⟩ := ofData?_cases d
  · rw [ofData, hs] at h
    obtain rfl := Except.ok.inj h
    exact hgiven
  · rw [ofData, hfaults] at h
    cases h

end ApiScaffold.Settings
