import ApiScaffold.Proofs.Project.Emission

namespace ApiScaffold

namespace Registry

variable {r : Registry} {calls : List (String × String)} {answers : List Bool} {c : String × String} {n s m t : String}

def enterAll (r : Registry) : List (String × String) → List Bool × Registry
  | [] => ([], r)
  | c :: calls =>
    let entered := r.enter c.1 c.2
    let rest := enterAll entered.2 calls
    (entered.1 :: rest.1, rest.2)

def IsLastCall (calls : List (String × String)) (n s : String) : Prop :=
  ∃ before after, calls = before ++ (n, s) :: after ∧ n ∉ after.map Prod.fst

/-- What holds of a registry, and of the answers, after calls on an empty one. -/
structure IsFilled (project : String) (calls : List (String × String)) (answers : List Bool) (r : Registry) : Prop where
  project_eq : r.project = project
  nodup : r.names.Nodup
  names_eq : r.names = (calls.map Prod.fst).eraseDups
  get?_iff : ∀ n s, r.get? n = some s ↔ IsLastCall calls n s
  answers_eq : ∀ i, answers[i]? = calls[i]?.map fun c => decide (c.1 ∉ (calls.take i).map Prod.fst)

theorem isLastCall_concat : IsLastCall (calls ++ [c]) n s ↔ c = (n, s) ∨ n ≠ c.1 ∧ IsLastCall calls n s := by
  constructor
  · rintro ⟨before, after, h, hafter⟩
    rcases List.eq_nil_or_concat after with rfl | ⟨after, d, rfl⟩
    · exact .inl (List.singleton_inj.1 (List.append_inj' h rfl).2)
    · rw [List.concat_eq_append, ← List.cons_append, ← List.append_assoc] at h
      obtain ⟨rfl, hlast⟩ := List.append_inj' h rfl
      obtain rfl := List.singleton_inj.1 hlast
      rw [List.concat_eq_append, List.map_append, List.mem_append, not_or] at hafter
      exact .inr ⟨fun he => hafter.2 (by simp [he]), before, after, rfl, hafter.1⟩
  · rintro (rfl | ⟨hne, before, after, rfl, hafter⟩)
    · exact ⟨calls, [], rfl, List.not_mem_nil⟩
    · exact ⟨before, after ++ [c], by simp, by simp [hne, hafter]⟩

theorem eraseDups_concat (ns : List String) (n : String) :
    (ns ++ [n]).eraseDups = if n ∈ ns then ns.eraseDups else ns.eraseDups ++ [n] := by
  rw [List.eraseDups_append]
  split_ifs with hn <;> simp [List.removeAll, List.eraseDups_cons, hn]

namespace IsFilled

variable {project : String}

theorem mem_names_iff (h : IsFilled project calls answers r) : n ∈ r.names ↔ n ∈ calls.map Prod.fst := by
  rw [h.names_eq, List.mem_eraseDups]

theorem length_eq (h : IsFilled project calls answers r) : answers.length = calls.length := by
  have hcalls := h.answers_eq answers.length
  have hanswers := h.answers_eq calls.length
  rw [List.getElem?_eq_none (Nat.le_refl _), eq_comm, Option.map_eq_none_iff, List.getElem?_eq_none_iff] at hcalls
  rw [List.getElem?_eq_none (Nat.le_refl calls.length), Option.map_none, List.getElem?_eq_none_iff] at hanswers
  exact Nat.le_antisymm hanswers hcalls

theorem empty (project : String) : IsFilled project [] [] (.empty project) where
  project_eq := rfl
  nodup := List.nodup_nil
  names_eq := rfl
  get?_iff n s := ⟨nofun, fun ⟨before, after, h, _⟩ => by simp at h⟩
  answers_eq i := by simp

theorem answer_eq (h : IsFilled project calls answers r) (c : String × String) :
    (r.enter c.1 c.2).1 = decide (c.1 ∉ calls.map Prod.fst) := by
  rw [Bool.eq_iff_iff, decide_eq_true_iff, ← h.mem_names_iff]
  exact Option.isNone_iff_eq_none.trans (Keyed.get?_eq_none_iff c.1 r.features)

theorem enter (h : IsFilled project calls answers r) (c : String × String) :
    IsFilled project (calls ++ [c]) (answers ++ [(r.enter c.1 c.2).1]) (r.enter c.1 c.2).2 where
  project_eq := h.project_eq
  nodup := Keyed.nodup_keys_put h.nodup
  names_eq := by
    rw [Registry.enter, names_register, h.names_eq, List.map_append, List.map_singleton, eraseDups_concat]
    simp only [List.mem_eraseDups]
  get?_iff n s := by
    rw [isLastCall_concat]
    by_cases hn : n = c.1
    · subst hn
      rw [Registry.enter, get?_register_self]
      simp [Prod.ext_iff]
    · rw [Registry.enter, get?_register_of_ne hn, h.get?_iff]
      have hne : c ≠ (n, s) := fun he => hn (he ▸ rfl)
      simp [hn, hne]
  answers_eq i := by
    have hlength := h.length_eq
    rcases Nat.lt_trichotomy i calls.length with hi | rfl | hi
    · rw [List.getElem?_append_left (hlength ▸ hi), List.getElem?_append_left hi,
        List.take_append_of_le_length (Nat.le_of_lt hi), h.answers_eq]
    · rw [← hlength, List.getElem?_concat_length, hlength, List.getElem?_concat_length, List.take_left, h.answer_eq]
      rfl
    · rw [List.getElem?_eq_none (by simp; omega), List.getElem?_eq_none (by simp; omega)]
      rfl

end IsFilled

theorem enterAll_concat (r : Registry) (calls : List (String × String)) (c : String × String) :
    r.enterAll (calls ++ [c]) = ((r.enterAll calls).1 ++ [((r.enterAll calls).2.enter c.1 c.2).1],
      ((r.enterAll calls).2.enter c.1 c.2).2) := by
  induction calls generalizing r with
  | nil => rfl
  | cons d calls ih =>
      rw [List.cons_append, enterAll, ih]
      rfl

theorem enterAll_snd (r : Registry) (calls : List (String × String)) : (r.enterAll calls).2 = r.registerAll calls := by
  induction calls generalizing r with
  | nil => rfl
  | cons c calls ih => exact ih (r.register c.1 c.2)

theorem isFilled_enterAll (project : String) (calls : List (String × String)) :
    IsFilled project calls ((empty project).enterAll calls).1 ((empty project).enterAll calls).2 := by
  induction calls using List.reverseRecOn with
  | nil => exact .empty project
  | append_singleton calls c ih =>
      rw [enterAll_concat]
      exact ih.enter c

theorem IsFilled.mem_features_iff {project : String} (h : IsFilled project calls answers r) :
    (n, s) ∈ r.features ↔ r.get? n = some s :=
  ⟨fun hmem => Keyed.get?_of_mem h.nodup hmem, Keyed.mem_of_get?⟩

theorem IsFilled.isSome_get?_iff {project : String} (h : IsFilled project calls answers r) :
    (r.get? n).isSome = true ↔ n ∈ calls.map Prod.fst := by
  rw [← h.mem_names_iff, Option.isSome_iff_ne_none]
  exact not_iff_comm.1 (Keyed.get?_eq_none_iff n r.features).symm

theorem registryOf_eq_ok_iff {project : String} {fs : List Feature} : Project.registryOf project fs = .ok r ↔
    ∃ calls, List.Forall₂ (fun f c => ∃ ms, Mapping.ofFields f.fields = .ok ms ∧ c = (f.name, Mapping.sampleJson ms))
      fs calls ∧ r = ((empty project).enterAll calls).2 := by
  have hcall (f : Feature) (c : String × String) :
      ((Mapping.ofFields f.fields).map fun ms => (f.name, Mapping.sampleJson ms)) = .ok c ↔
        ∃ ms, Mapping.ofFields f.fields = .ok ms ∧ c = (f.name, Mapping.sampleJson ms) := by
    cases Mapping.ofFields f.fields <;> simp [Except.map, eq_comm]
  simp only [enterAll_snd, ← hcall, ← Project.mapM_eq_ok_iff]
  rw [Project.registryOf]
  constructor
  · intro h
    obtain ⟨calls, hcalls, h⟩ := Project.exists_of_bind h
    exact ⟨calls, hcalls, (Except.ok.inj h).symm⟩
  · rintro ⟨calls, hcalls, rfl⟩
    rw [hcalls]
    rfl

/-- Registering on an empty registry keeps the place of the first call for a name and the sample of the last, and
answers whether the name was new. The registry of a new project is filled so. -/
theorem registering_keeps_first_place_last_sample (project : String) :
    (∀ calls, ∃ answers r, (empty project).enterAll calls = (answers, r) ∧ r.project = project ∧ r.names.Nodup ∧
      r.names = (calls.map Prod.fst).eraseDups ∧ (∀ n s, (n, s) ∈ r.features ↔ IsLastCall calls n s) ∧
      (∀ n s, r.get? n = some s ↔ (n, s) ∈ r.features) ∧ (∀ n, (r.get? n).isSome = true ↔ n ∈ calls.map Prod.fst) ∧
      ∀ i, answers[i]? = calls[i]?.map fun c => decide (c.1 ∉ (calls.take i).map Prod.fst)) ∧
    ∀ fs r, Project.registryOf project fs = .ok r ↔ ∃ calls,
      List.Forall₂ (fun f c => ∃ ms, Mapping.ofFields f.fields = .ok ms ∧ c = (f.name, Mapping.sampleJson ms))
        fs calls ∧ r = ((empty project).enterAll calls).2 := by
  refine ⟨fun calls => ⟨_, _, rfl, ?_⟩, fun fs r => registryOf_eq_ok_iff⟩
  have h := isFilled_enterAll project calls
  exact ⟨h.project_eq, h.nodup, h.names_eq, fun n s => h.mem_features_iff.trans (h.get?_iff n s),
    fun n s => h.mem_features_iff.symm, fun n => h.isSome_get?_iff, h.answers_eq⟩

end Registry

end ApiScaffold
