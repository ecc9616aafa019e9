import ApiScaffold.Keyed

namespace ApiScaffold.Keyed

variable {κ α : Type} [DecidableEq κ]

theorem put_of_not_mem {k : κ} {ps : List (κ × α)} (h : k ∉ keys ps) (v : α) :
    put k v ps = ps ++ [(k, v)] := by
  induction ps with
  | nil => rfl
  | cons p ps ih =>
      obtain ⟨hp, hps⟩ := not_or.1 fun m => h (List.mem_cons.2 m)
      rw [put, if_neg (Ne.symm hp), ih hps, List.cons_append]

theorem mem_put {k : κ} {v : α} {ps : List (κ × α)} {p : κ × α} (h : p ∈ put k v ps) :
    p = (k, v) ∨ p ∈ ps := by
  induction ps with
  | nil => exact .inl (List.mem_singleton.1 h)
  | cons q ps ih =>
      rw [put] at h
      split at h
      · exact (List.mem_cons.1 h).imp_right (List.mem_cons_of_mem _)
      · rcases List.mem_cons.1 h with rfl | h
        · exact .inr (by simp)
        · exact (ih h).imp_right (List.mem_cons_of_mem _)

theorem foldl_put_of_nodup {ps qs : List (κ × α)} (h : (keys (ps ++ qs)).Nodup) :
    qs.foldl (fun t p => put p.1 p.2 t) ps = ps ++ qs := by
  induction qs generalizing ps with
  | nil => simp
  | cons q qs ih =>
      have hq : q.1 ∉ keys ps := by
        simp only [keys, List.map_append, List.map_cons, List.nodup_append] at h
        intro hm
        exact h.2.2 _ hm _ (by simp) rfl
      have happ : ps ++ q :: qs = ps ++ [q] ++ qs := by simp
      rw [List.foldl_cons, put_of_not_mem hq, ih (happ ▸ h), happ]

theorem ofPairs_of_nodup {ps : List (κ × α)} (h : (keys ps).Nodup) : ofPairs ps = ps := by
  rw [ofPairs, foldl_put_of_nodup (by simpa using h), List.nil_append]

theorem nodup_keys_put {k : κ} {v : α} {ps : List (κ × α)} (h : (keys ps).Nodup) : (keys (put k v ps)).Nodup := by
  rw [keys_put]
  split
  · exact h
  next hk => exact List.nodup_append.2 ⟨h, by simp, fun a ha b hb e => hk (List.mem_singleton.1 hb ▸ e ▸ ha)⟩

theorem foldl_put {ps qs : List (κ × α)} (h : (keys ps).Nodup) :
    (keys (qs.foldl (fun t p => put p.1 p.2 t) ps)).Nodup ∧
      ∀ p ∈ qs.foldl (fun t p => put p.1 p.2 t) ps, p ∈ ps ∨ p ∈ qs := by
  induction qs generalizing ps with
  | nil => exact ⟨h, fun p hp => .inl hp⟩
  | cons q qs ih =>
      obtain ⟨hnodup, hmem⟩ := ih (nodup_keys_put (k := q.1) (v := q.2) h)
      refine ⟨hnodup, fun p hp => ?_⟩
      rcases hmem p hp with hp | hp
      · rcases mem_put hp with rfl | hp
        · exact .inr List.mem_cons_self
        · exact .inl hp
      · exact .inr (List.mem_cons_of_mem q hp)

theorem nodup_keys_ofPairs (ps : List (κ × α)) : (keys (ofPairs ps)).Nodup := by
  have hnil : (keys ([] : List (κ × α))).Nodup := List.nodup_nil
  exact (foldl_put hnil).1

theorem mem_of_mem_ofPairs {ps : List (κ × α)} {p : κ × α} (h : p ∈ ofPairs ps) : p ∈ ps := by
  have hnil : (keys ([] : List (κ × α))).Nodup := List.nodup_nil
  exact ((foldl_put hnil).2 p h).resolve_left List.not_mem_nil

theorem get?_of_mem {ps : List (κ × α)} (h : (keys ps).Nodup) {p : κ × α} (hp : p ∈ ps) :
    get? p.1 ps = some p.2 := by
  induction ps with
  | nil => cases hp
  | cons q ps ih =>
      obtain ⟨hq, hps⟩ := List.nodup_cons.1 h
      rcases List.mem_cons.1 hp with rfl | hp
      · simp [get?]
      · have hne : q.1 ≠ p.1 := fun e => hq (List.mem_map.2 ⟨p, hp, e.symm⟩)
        rw [get?, if_neg hne, ih hps hp]

theorem mem_of_get? {k : κ} {v : α} {ps : List (κ × α)} (h : get? k ps = some v) : (k, v) ∈ ps := by
  induction ps with
  | nil => cases h
  | cons p ps ih =>
      rw [get?] at h
      split at h
      next hk =>
        obtain rfl := Option.some.inj h
        exact List.mem_cons.2 (.inl (by rw [← hk]))
      · exact List.mem_cons_of_mem p (ih h)

theorem get?_foldl_put_of_not_mem {k : κ} {ps qs : List (κ × α)} (h : k ∉ keys qs) :
    get? k (qs.foldl (fun t p => put p.1 p.2 t) ps) = get? k ps := by
  induction qs generalizing ps with
  | nil => rfl
  | cons q qs ih =>
      obtain ⟨hq, hqs⟩ := not_or.1 fun hm => h (List.mem_cons.2 hm)
      rw [List.foldl_cons, ih hqs, get?_put_of_ne hq]

theorem get?_foldl_put {ps qs : List (κ × α)} (h : (keys qs).Nodup) {p : κ × α} (hp : p ∈ qs) :
    get? p.1 (qs.foldl (fun t p => put p.1 p.2 t) ps) = some p.2 := by
  induction qs generalizing ps with
  | nil => cases hp
  | cons q qs ih =>
      obtain ⟨hq, hqs⟩ := List.nodup_cons.1 h
      rw [List.foldl_cons]
      rcases List.mem_cons.1 hp with rfl | hp
      · rw [get?_foldl_put_of_not_mem hq, get?_put_self]
      · exact ih hqs hp

end ApiScaffold.Keyed
