import ApiScaffold.Proofs.Identifier
import ApiScaffold.Proofs.Project.EntryPoint
import ApiScaffold.Proofs.Text.Capital
import Mathlib.Data.List.Nodup

namespace ApiScaffold

namespace EntryPoint

open TypeScript

theorem bound_append (m m' : Module) : Module.bound (m ++ m') = Module.bound m ++ Module.bound m' :=
  List.flatMap_append

theorem bound_map (fs : List WiredFeature) (g : WiredFeature → Import) :
    Module.bound (fs.map fun f => .importing (g f)) = fs.flatMap fun f => (g f).bound := by
  rw [Module.bound, List.flatMap_map]
  rfl

theorem bound_controllers (fs : List WiredFeature) :
    Module.bound (fs.flatMap controller) = fs.map WiredFeature.controllerVariable := by
  rw [Module.bound, List.flatMap_assoc, List.map_eq_flatMap]
  rfl

theorem bound_module (r : Registry) (s : Settings) : (module (.ofRegistry r s)).bound =
    ["express", "dotenv", "container", "connectToDatabase"] ++ r.names.map Identifier.controllerClass ++
      (["app", "port"] ++ r.names.map Identifier.controllerVariable ++ ["startServer"]) := by
  have hvariables : (r.features.map (WiringSheet.wired s)).map WiredFeature.controllerVariable =
      r.names.map Identifier.controllerVariable := by
    rw [Registry.names, Keyed.keys, List.map_map, List.map_map]
    rfl
  have hclasses : ((r.features.map (WiringSheet.wired s)).flatMap fun f =>
      (Import.named [f.controllerClass] f.controllerModule).bound) =
        r.names.map Identifier.controllerClass := by
    rw [Registry.names, Keyed.keys, List.map_map, List.flatMap_map, List.map_eq_flatMap]
    rfl
  have heffects : ((r.features.map (WiringSheet.wired s)).flatMap fun f =>
      (Import.effects f.containerModule).bound) = [] :=
    List.flatMap_eq_nil_iff.2 fun _ _ => rfl
  simp only [module, bound_append, bound_map, bound_controllers, WiringSheet.ofRegistry, hvariables, hclasses,
    heffects, List.append_assoc, List.nil_append]
  rfl

def BeginsSmall (n : String) : Prop := ∃ c ∈ n.toList.head?, c.isLower

theorem start_of_review {n : String} (he : (Feature.reviewName n).errors = [])
    (hw : (Feature.reviewName n).warnings = []) : ∃ c cs, n.toList = c :: cs ∧ Identifier.isStart c :=
  Identifier.exists_start_of_isValid ((Feature.reviewName_quiet_iff n).1 ⟨he, hw⟩)

theorem variable_injective : Function.Injective Identifier.controllerVariable := by
  intro m n h
  have htext := congrArg String.toList h
  rw [Identifier.controllerVariable, Identifier.controllerVariable, String.toList_append,
    String.toList_append] at htext
  exact String.toList_inj.1 (List.append_cancel_right htext)

theorem toList_class {n : String} {c : Char} {cs : List Char} (hn : n.toList = c :: cs) (hc : c.isLower) :
    (Identifier.controllerClass n).toList = c.toUpper :: (cs ++ "Controller".toList) := by
  have hstart : Identifier.isStart c := by simp [Identifier.isStart, Text.isAlpha_eq, hc]
  rw [Identifier.controllerClass, String.toList_append, Text.toList_capitalize hn hstart, List.cons_append]

theorem BeginsSmall.eq_cons {n : String} (h : BeginsSmall n) : ∃ c cs, n.toList = c :: cs ∧ c.isLower := by
  obtain ⟨c, hhead, hc⟩ := h
  obtain ⟨cs, hn⟩ := List.head?_eq_some_iff.1 hhead
  exact ⟨c, cs, hn, hc⟩

theorem class_inj {m n : String} (hm : BeginsSmall m) (hn : BeginsSmall n)
    (h : Identifier.controllerClass m = Identifier.controllerClass n) : m = n := by
  obtain ⟨c, cs, hm, hc⟩ := hm.eq_cons
  obtain ⟨d, ds, hn, hd⟩ := hn.eq_cons
  have htext := congrArg String.toList h
  rw [toList_class hm hc, toList_class hn hd] at htext
  obtain ⟨hhead, htail⟩ := List.cons.inj htext
  rw [← String.toList_inj, hm, hn, ← (Text.toUpper_small hc).1, ← (Text.toUpper_small hd).1, hhead,
    List.append_cancel_right htail]

theorem class_ne_variable {m n : String} (hm : BeginsSmall m) (hn : BeginsSmall n) :
    Identifier.controllerClass m ≠ Identifier.controllerVariable n := by
  obtain ⟨c, cs, hm, hc⟩ := hm.eq_cons
  obtain ⟨d, ds, hn, hd⟩ := hn.eq_cons
  intro h
  have htext := congrArg String.toList h
  rw [toList_class hm hc, Identifier.controllerVariable, String.toList_append, hn, List.cons_append] at htext
  have hhead : c.toUpper = d := (List.cons.inj htext).1
  exact (Text.toUpper_small hc).2 (hhead ▸ hd)

theorem class_eq_variable {n : String} {c : Char} {cs : List Char} (hn : n.toList = c :: cs)
    (hstart : Identifier.isStart c) (hc : ¬c.isLower) :
    Identifier.controllerClass n = Identifier.controllerVariable n := by
  have hcapital : Text.capitalize n = n := by
    rw [← String.toList_inj, Text.toList_capitalize hn hstart, hn, Text.toUpper_of_not_isLower hc]
  rw [Identifier.controllerClass, hcapital, Identifier.controllerVariable]

theorem controllers_nodup_iff {ns : List String} (hnodup : ns.Nodup)
    (hstart : ∀ n ∈ ns, ∃ c cs, n.toList = c :: cs ∧ Identifier.isStart c) :
    (ns.map Identifier.controllerClass ++ ns.map Identifier.controllerVariable).Nodup ↔
      ∀ n ∈ ns, BeginsSmall n := by
  rw [List.nodup_append]
  constructor
  · rintro ⟨-, -, hapart⟩ n hn
    obtain ⟨c, cs, htext, hc⟩ := hstart n hn
    refine ⟨c, by rw [htext]; rfl, ?_⟩
    by_contra hsmall
    exact hapart _ (List.mem_map_of_mem hn) _ (List.mem_map_of_mem hn) (class_eq_variable htext hc hsmall)
  · intro hsmall
    refine ⟨hnodup.map_on ?_, hnodup.map variable_injective, ?_⟩
    · exact fun m hm n hn h => class_inj (hsmall m hm) (hsmall n hn) h
    · intro x hclass y hvariable
      obtain ⟨m, hm, rfl⟩ := List.mem_map.1 hclass
      obtain ⟨n, hn, rfl⟩ := List.mem_map.1 hvariable
      exact class_ne_variable (hsmall m hm) (hsmall n hn)

def fixedNames : List String :=
  ["express", "dotenv", "container", "connectToDatabase", "app", "port", "startServer"]

theorem controller_not_fixed {x : String} (h : "Controller".toList <:+ x.toList) : x ∉ fixedNames := by
  have hfixed : ∀ x ∈ fixedNames, ¬"Controller".toList <:+ x.toList := by decide
  exact fun hx => hfixed x hx h

/-- The entry point binds each name once just when all features begin with a small letter. -/
theorem bound_nodup_iff {r : Registry} (hnodup : r.names.Nodup)
    (hreview : ∀ n ∈ r.names, (Feature.reviewName n).errors = [] ∧ (Feature.reviewName n).warnings = [])
    (s : Settings) :
    let m := module (.ofRegistry r s)
    (render r s).content = m.text ∧ (m.bound.Nodup ↔ ∀ n ∈ r.names, BeginsSmall n) := by
  refine ⟨rfl, ?_⟩
  have hperm : (module (.ofRegistry r s)).bound.Perm (fixedNames ++
      (r.names.map Identifier.controllerClass ++ r.names.map Identifier.controllerVariable)) := by
    rw [bound_module, List.perm_iff_count]
    intro a
    simp only [fixedNames, List.count_append, List.count_cons, List.count_nil]
    omega
  have hapart : ∀ x ∈ fixedNames, ∀ y ∈ r.names.map Identifier.controllerClass ++
      r.names.map Identifier.controllerVariable, x ≠ y := by
    rintro x hx _ hmem rfl
    refine controller_not_fixed ?_ hx
    rcases List.mem_append.1 hmem with h | h
    · obtain ⟨n, -, rfl⟩ := List.mem_map.1 h
      exact List.isSuffixOf_iff_suffix.1 (controllerClass_isSuffixOf n)
    · obtain ⟨n, -, rfl⟩ := List.mem_map.1 h
      rw [Identifier.controllerVariable, String.toList_append]
      exact List.suffix_append _ _
  rw [hperm.nodup_iff, List.nodup_append]
  have hcontrollers := controllers_nodup_iff hnodup fun n hn =>
    start_of_review (hreview n hn).1 (hreview n hn).2
  constructor
  · exact fun h => hcontrollers.1 h.2.1
  · exact fun h => ⟨by decide, hcontrollers.2 h, hapart⟩

theorem bound_nodup_iff_shop :
    let r : Registry := ⟨"Shop", [("user", "\x7b\x7d"), ("order", "\x7b\x7d")]⟩
    let m := module (.ofRegistry r .standard)
    (render r .standard).content = m.text ∧ (m.bound.Nodup ↔ ∀ n ∈ ["user", "order"], BeginsSmall n) :=
  bound_nodup_iff (by decide) (by decide) _

/-- A name that begins with a capital passes the review, and is bound twice. -/
theorem capital_bound_twice :
    let r : Registry := ⟨"Shop", [("User", "\x7b\x7d")]⟩
    r.names.Nodup ∧ Feature.reviewName "User" = .clean ∧
      ¬(module (.ofRegistry r .standard)).bound.Nodup := by
  decide +kernel

end EntryPoint

end ApiScaffold
