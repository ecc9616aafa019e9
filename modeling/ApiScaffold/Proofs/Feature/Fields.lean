import ApiScaffold.Feature.Basic
import ApiScaffold.Proofs.Field.Specification
import ApiScaffold.Proofs.Settings.Soundness

namespace ApiScaffold

namespace Field

def declared (spec : Option String) : List Field := (spec.map readSpec).getD []

theorem resolve_eq (spec : Option String) (fallback : String) :
    resolve spec fallback = if declared spec = [] then readSpec fallback else declared spec := by
  have hspec : readSpec (spec.getD "") = declared spec := by
    cases spec with
    | none => exact readSpec_empty
    | some text => rfl
  rw [resolve, hspec]
  split
  next hnil => rw [if_pos hnil]
  next hne => rw [if_neg hne]

theorem readSpec_eq_nil_iff (text : String) : readSpec text = [] ↔ ∀ e ∈ entries text, isBlankEntry e = true := by
  rw [readSpec, List.map_eq_nil_iff, List.filter_eq_nil_iff]
  simp

theorem declared_eq_nil_iff (spec : Option String) :
    declared spec = [] ↔ ∀ text ∈ spec, ∀ e ∈ entries text, isBlankEntry e = true := by
  cases spec with
  | none => exact ⟨fun _ => nofun, fun _ => rfl⟩
  | some text =>
      refine (readSpec_eq_nil_iff text).trans ⟨?_, fun h => h text rfl⟩
      rintro h _ ⟨⟩
      exact h

theorem resolve_isWellFormed (spec : Option String) (fallback : String) :
    ∀ f ∈ resolve spec fallback, f.IsWellFormed := by
  rw [resolve]
  split
  · exact readSpec_isWellFormed _
  · exact readSpec_isWellFormed _

end Field

namespace Feature

variable {d : Data} {file : Option String} {s : Settings}

/-- Whatever specification is given, if any, the feature has well-formed fields and at least one: those of the
specification, unless all its entries are blank, or else those of the settings. -/
theorem build_declares (h : Settings.ofData d file = .ok s) (name : String) (spec : Option String) :
    (build name spec s.defaultFields).name = name ∧
      (build name spec s.defaultFields).fields ≠ [] ∧
      (build name spec s.defaultFields).fields =
        (if Field.declared spec = [] then Field.readSpec s.defaultFields else Field.declared spec) ∧
      (Field.declared spec = [] ↔ ∀ text ∈ spec, ∀ e ∈ Field.entries text, Field.isBlankEntry e = true) ∧
      ∀ f ∈ (build name spec s.defaultFields).fields, f.IsWellFormed := by
  have hdefault : Field.readSpec s.defaultFields ≠ [] := (Settings.isGiven_of_ofData h).isSound.fields
  have hfields : (build name spec s.defaultFields).fields =
      if Field.declared spec = [] then Field.readSpec s.defaultFields else Field.declared spec :=
    Field.resolve_eq spec s.defaultFields
  refine ⟨rfl, ?_, hfields, Field.declared_eq_nil_iff spec, Field.resolve_isWellFormed spec s.defaultFields⟩
  rw [hfields]
  split
  · exact hdefault
  next hne => exact hne

theorem build_declares_blank :
    Settings.ofData (.mapping [(.str "default_fields", .str ", id : number ,")]) none =
        .ok { Settings.standard with defaultFields := ", id : number ," } ∧
      (build "user" (some " ,\t,") ", id : number ,").fields = [⟨"id", "number", ""⟩] := by
  have h : Settings.ofData (.mapping [(.str "default_fields", .str ", id : number ,")]) none =
      .ok { Settings.standard with defaultFields := ", id : number ," } := by
    decide +kernel
  have hblank : Field.declared (some " ,\t,") = [] := by decide +kernel
  refine ⟨h, (build_declares h "user" (some " ,\t,")).2.2.1.trans ?_⟩
  rw [if_pos hblank]
  decide +kernel

end Feature

end ApiScaffold
