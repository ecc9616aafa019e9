import ApiScaffold.Proofs.Keyed
import Mathlib.Data.List.Basic
import Mathlib.Data.List.Induction
import Mathlib.Data.List.Nodup

namespace ApiScaffold.Keyed

variable {κ ι α β : Type}

/-- Blocks of pairs. The key of a block says which keys are in it; for keys that may occur there is no key in two blocks,
nor twice in one. -/
structure IsBlock (occurs : κ → Prop) (inner : κ → List ι) (block : κ × α → List (ι × β)) : Prop where
  keys_eq : ∀ p, keys (block p) = inner p.1
  nodup : ∀ k, occurs k → (inner k).Nodup
  apart : ∀ k l, occurs k → occurs l → k ≠ l → (inner k).Disjoint (inner l)

variable {occurs : κ → Prop} {inner : κ → List ι} {block : κ × α → List (ι × β)} {ps ts : List (κ × α)} {k : κ}

theorem IsBlock.keys_flatMap (h : IsBlock occurs inner block) (ps : List (κ × α)) :
    keys (ps.flatMap block) = (keys ps).flatMap inner := by
  rw [keys, List.map_flatMap, keys, List.flatMap_map]
  exact congrArg ps.flatMap (funext h.keys_eq)

theorem IsBlock.nodup_keys_flatMap (h : IsBlock occurs inner block) (hne : ∀ k, inner k ≠ [])
    (hps : ∀ k ∈ keys ps, occurs k) : (keys (ps.flatMap block)).Nodup ↔ (keys ps).Nodup := by
  rw [h.keys_flatMap, List.nodup_flatMap]
  refine ⟨fun hall => hall.2.imp fun hkl e => ?_, fun hall => ⟨fun k hk => h.nodup k (hps k hk), ?_⟩⟩
  · obtain ⟨i, hi⟩ := List.exists_mem_of_ne_nil _ (hne _)
    exact hkl hi (e ▸ hi)
  · exact hall.imp_of_mem fun hk hl hkl => h.apart _ _ (hps _ hk) (hps _ hl) hkl

variable [DecidableEq κ] [DecidableEq ι]

theorem put_map (g : α → β) (k : κ) (v : α) (ps : List (κ × α)) :
    put k (g v) (ps.map (Prod.map id g)) = (put k v ps).map (Prod.map id g) := by
  induction ps with
  | nil => rfl
  | cons p ps ih =>
      rw [List.map_cons, put, put]
      by_cases hk : p.1 = k
      · simp [hk]
      · simp [hk, ih]

theorem foldl_put_map (g : α → β) (ps ts : List (κ × α)) :
    (ps.map (Prod.map id g)).foldl (fun t p => put p.1 p.2 t) (ts.map (Prod.map id g)) =
      (ps.foldl (fun t p => put p.1 p.2 t) ts).map (Prod.map id g) := by
  induction ps generalizing ts with
  | nil => rfl
  | cons p ps ih =>
      rw [List.map_cons, List.foldl_cons, List.foldl_cons, ← ih, ← put_map]
      rfl

theorem ofPairs_map (g : α → β) (ps : List (κ × α)) :
    ofPairs (ps.map (Prod.map id g)) = (ofPairs ps).map (Prod.map id g) := foldl_put_map g ps []

theorem ofPairs_concat (ps : List (κ × α)) (p : κ × α) : ofPairs (ps ++ [p]) = put p.1 p.2 (ofPairs ps) := by
  rw [ofPairs, List.foldl_append]
  rfl

theorem keys_ofPairs (ps : List (κ × α)) : keys (ofPairs ps) = (keys ps).eraseDups := by
  induction ps using List.reverseRecOn with
  | nil => rfl
  | append_singleton ps p ih =>
      have hmem : p.1 ∈ (keys ps).eraseDups ↔ p.1 ∈ keys ps := List.mem_eraseDups
      have hkeys : keys (ps ++ [p]) = keys ps ++ [p.1] := List.map_append
      rw [ofPairs_concat, keys_put, ih, hkeys, List.eraseDups_append]
      by_cases hp : p.1 ∈ keys ps <;> simp [hmem, hp, List.removeAll, List.eraseDups_cons]

theorem get?_ofPairs (k : κ) (ps : List (κ × α)) : get? k (ofPairs ps) = get? k ps.reverse := by
  induction ps using List.reverseRecOn with
  | nil => rfl
  | append_singleton ps p ih =>
      rw [ofPairs_concat, List.reverse_concat, get?]
      by_cases hp : p.1 = k
      · rw [if_pos hp, ← hp, get?_put_self]
      · rw [if_neg hp, get?_put_of_ne (Ne.symm hp), ih]

/-- The pairs that are kept are those with no pair of the same key behind them. -/
theorem mem_ofPairs_iff {p : κ × α} :
    p ∈ ofPairs ps ↔ ∃ before after, ps = before ++ p :: after ∧ ∀ q ∈ after, q.1 ≠ p.1 := by
  have hget : p ∈ ofPairs ps ↔ get? p.1 ps.reverse = some p.2 := by
    rw [← get?_ofPairs]
    exact ⟨get?_of_mem (nodup_keys_ofPairs ps), mem_of_get?⟩
  rw [hget]
  clear hget
  induction ps using List.reverseRecOn with
  | nil => simp [get?]
  | append_singleton ps q ih =>
      rw [List.reverse_concat, get?]
      constructor
      · intro h
        split at h
        next hq =>
          obtain rfl : q = p := Prod.ext hq (Option.some.inj h)
          exact ⟨ps, [], rfl, List.forall_mem_nil _⟩
        next hq =>
          obtain ⟨before, after, rfl, hafter⟩ := ih.1 h
          refine ⟨before, after ++ [q], by simp, List.forall_mem_append.2 ⟨hafter, ?_⟩⟩
          exact List.forall_mem_singleton.2 hq
      · rintro ⟨before, after, heq, hafter⟩
        rcases List.eq_nil_or_concat' after with rfl | ⟨after, r, rfl⟩
        · obtain ⟨-, hq⟩ := List.append_inj' heq rfl
          obtain rfl := List.singleton_inj.1 hq
          rw [if_pos rfl]
        · obtain ⟨hinner, hr⟩ := List.forall_mem_append.1 hafter
          have hlast : ps ++ [q] = (before ++ p :: after) ++ [r] := by simpa using heq
          obtain ⟨rfl, hqr⟩ := List.append_inj' hlast rfl
          obtain rfl := List.singleton_inj.1 hqr
          rw [if_neg (hr q List.mem_cons_self)]
          exact ih.2 ⟨before, after, rfl, hinner⟩

theorem filterMap_get? {ps : List (κ × α)} (h : (keys ps).Nodup) :
    (keys ps).filterMap (fun k => (get? k ps).map (k, ·)) = ps := by
  have hpair : ∀ p ∈ ps, (get? p.1 ps).map (p.1, ·) = some p := fun p hp => by rw [get?_of_mem h hp]; rfl
  rw [keys, List.filterMap_map]
  exact (List.filterMap_congr hpair).trans List.filterMap_some

theorem put_append {k : κ} {cs : List (κ × α)} (h : k ∉ keys cs) (v : α) (ts : List (κ × α)) :
    put k v (cs ++ ts) = cs ++ put k v ts := by
  induction cs with
  | nil => rfl
  | cons c cs ih =>
      obtain ⟨hc, hcs⟩ := not_or.1 (List.mem_cons.not.1 h)
      rw [List.cons_append, put, if_neg (Ne.symm hc), ih hcs, List.cons_append]

theorem foldl_put_append {cs qs : List (κ × α)} (h : (keys cs).Disjoint (keys qs)) (ts : List (κ × α)) :
    qs.foldl (fun t p => put p.1 p.2 t) (cs ++ ts) = cs ++ qs.foldl (fun t p => put p.1 p.2 t) ts := by
  induction qs generalizing ts with
  | nil => rfl
  | cons q qs ih =>
      obtain ⟨hq, hqs⟩ := List.disjoint_cons_right.1 h
      rw [List.foldl_cons, List.foldl_cons, put_append hq, ih hqs]

theorem ofPairs_append {cs qs : List (κ × α)} (h : (keys cs).Disjoint (keys qs)) :
    ofPairs (cs ++ qs) = ofPairs cs ++ ofPairs qs := by
  have hkeys : (keys (ofPairs cs)).Disjoint (keys qs) := by
    intro k hk
    obtain ⟨p, hp, rfl⟩ := List.mem_map.1 hk
    exact h (List.mem_map_of_mem (mem_of_mem_ofPairs hp))
  rw [ofPairs, List.foldl_append, ← List.append_nil (cs.foldl _ _)]
  exact foldl_put_append hkeys []

theorem foldl_put_replace {cs qs : List (κ × α)} (h : keys cs = keys qs) (hnodup : (keys qs).Nodup)
    (ts : List (κ × α)) : qs.foldl (fun t p => put p.1 p.2 t) (cs ++ ts) = qs ++ ts := by
  induction qs generalizing cs with
  | nil => rw [List.map_eq_nil_iff.1 h, List.foldl_nil]
  | cons q qs ih =>
      cases cs with
      | nil => cases h
      | cons c cs =>
          obtain ⟨hc, hcs⟩ := List.cons.inj h
          obtain ⟨hq, hqs⟩ := List.nodup_cons.1 hnodup
          have hfirst : (keys [q]).Disjoint (keys qs) := List.singleton_disjoint.2 hq
          rw [List.foldl_cons, List.cons_append, put, if_pos hc]
          change qs.foldl _ ([q] ++ (cs ++ ts)) = _
          rw [foldl_put_append hfirst, ih hcs hqs]
          rfl

theorem IsBlock.foldl_put_block (h : IsBlock occurs inner block) (hk : occurs k) (v : α) (hts : ∀ l ∈ keys ts, occurs l) :
    (block (k, v)).foldl (fun t p => put p.1 p.2 t) (ts.flatMap block) = (put k v ts).flatMap block := by
  have hnodup : (keys (block (k, v))).Nodup := h.keys_eq (k, v) ▸ h.nodup k hk
  induction ts with
  | nil => exact (ofPairs_of_nodup hnodup).trans (List.append_nil _).symm
  | cons t ts ih =>
      obtain ⟨ht, hts⟩ := List.forall_mem_cons.1 hts
      rw [List.flatMap_cons, put]
      by_cases htk : t.1 = k
      · have hsame : keys (block t) = keys (block (k, v)) := by rw [h.keys_eq, h.keys_eq, htk]
        rw [if_pos htk, foldl_put_replace hsame hnodup, List.flatMap_cons]
      · have hapart : (keys (block t)).Disjoint (keys (block (k, v))) := by
          rw [h.keys_eq, h.keys_eq]
          exact h.apart t.1 k ht hk htk
        rw [if_neg htk, foldl_put_append hapart, ih hts, List.flatMap_cons]

theorem IsBlock.foldl_put_flatMap (h : IsBlock occurs inner block) (hps : ∀ k ∈ keys ps, occurs k)
    (hts : ∀ k ∈ keys ts, occurs k) :
    (ps.flatMap block).foldl (fun t p => put p.1 p.2 t) (ts.flatMap block) =
      (ps.foldl (fun t p => put p.1 p.2 t) ts).flatMap block := by
  induction ps generalizing ts with
  | nil => rfl
  | cons p ps ih =>
      obtain ⟨hp, hps⟩ := List.forall_mem_cons.1 hps
      have hput : ∀ k ∈ keys (put p.1 p.2 ts), occurs k := by
        intro k hk
        rw [keys_put] at hk
        split at hk
        · exact hts k hk
        · rcases List.mem_append.1 hk with hk | hk
          · exact hts k hk
          · exact List.mem_singleton.1 hk ▸ hp
      rw [List.flatMap_cons, List.foldl_append, List.foldl_cons, h.foldl_put_block hp p.2 hts, ih hps hput]

/-- Putting all blocks together gives, for each key, the last block of its key at the place of the first. -/
theorem IsBlock.ofPairs_flatMap (h : IsBlock occurs inner block) (hps : ∀ k ∈ keys ps, occurs k) :
    ofPairs (ps.flatMap block) = (ofPairs ps).flatMap block := by
  have hnil : ∀ k ∈ keys ([] : List (κ × α)), occurs k := nofun
  exact h.foldl_put_flatMap hps hnil

end ApiScaffold.Keyed
