import ApiScaffold.Proofs.Keyed
import ApiScaffold.Report.Call

namespace ApiScaffold.Report

open Keyed

theorem keys_entry_sublist (key : String) (v : Option String) : (keys (entry key v)).Sublist [key] := by
  cases v with
  | none => exact List.nil_sublist _
  | some v =>
      rw [entry]
      split
      · exact List.nil_sublist _
      · exact .refl _

namespace Call

variable {c : Call} {r : Report}

theorem nodup_keys_own (c : Call) : (keys c.own.context).Nodup := by
  unfold own
  cases c.kind with
  | general | usage => exact List.nodup_nil
  | configuration | environment => exact (keys_entry_sublist _ _).nodup (List.pairwise_singleton _ _)
  | projectExists => exact List.pairwise_singleton _ _
  | notAProject =>
      have h : (keys (("project_root", (c.value "project_root").shown) ::
          entry "entry_point" (c.part "entry_point"))).Sublist ["project_root", "entry_point"] :=
        (keys_entry_sublist _ _).cons_cons _
      exact h.nodup (by decide)
  | codeGeneration =>
      have h : (keys (entry "template" (c.part "template") ++ entry "feature" (c.part "feature"))).Sublist
          (["template"] ++ ["feature"]) := by
        rw [keys, List.map_append]
        exact (keys_entry_sublist _ _).append (keys_entry_sublist _ _)
      exact h.nodup (by decide)

theorem report_eq_ok (h : c.report = .ok r) :
    c.fault? = none ∧ r.context = c.own.context.foldl (fun t p => put p.1 p.2 t) c.context := by
  rw [report] at h
  split at h
  · cases h
  next hf =>
    obtain rfl := Except.ok.inj h
    exact ⟨hf, rfl⟩

theorem get?_context (h : c.report = .ok r) (key : String) :
    get? key r.context = (get? key c.own.context).or (get? key c.context) := by
  rw [(report_eq_ok h).2]
  cases hk : get? key c.own.context with
  | none => exact get?_foldl_put_of_not_mem ((get?_eq_none_iff _ _).1 hk)
  | some v => exact get?_foldl_put (nodup_keys_own c) (mem_of_get? hk)

theorem report_eq_own (hfault : c.fault? = none) (hcontext : c.context = []) (hsuggestions : c.suggestions = []) :
    c.report = .ok c.own := by
  have hfold : c.own.context.foldl (fun t p => put p.1 p.2 t) [] = c.own.context := ofPairs_of_nodup (nodup_keys_own c)
  rw [report, hfault, hcontext, hsuggestions]
  simp only [hfold, List.isEmpty_nil, if_true]

end Call

end ApiScaffold.Report
