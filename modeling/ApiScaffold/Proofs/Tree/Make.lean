import ApiScaffold.Proofs.Tree
import Mathlib.Data.List.Induction

namespace ApiScaffold

namespace Tree

variable {t t' t₁ : Tree} {l m : Location} {q r : List String} {x : String} {here : Location} {root : Path}

theorem locate_fits (h : Rooted here root l t) (hfit : Fits root q) :
    locate t here (root.below q) = follow t l q := by
  rw [h.locate_below, if_neg (by simp [hfit.notLong])]

theorem at?_of_locate {p : Path} (h : locate t here p = .ok m) : at? t here p = node? t m := by
  rw [at?, h]

theorem look_below (h : Rooted here root l t) (hfit : Fits root (q ++ [x])) (hdots : ".." ∉ q ++ [x])
    (hpaved : Paved t l q) : look t here (root.below (q ++ [x])) = .ok (node? t (l ++ (q ++ [x]))) := by
  rw [look, if_neg (by simp [hfit.noNull]), locate_fits h hfit, follow_concat_paved hdots hfit.short hpaved]

theorem makeOne_of_none (h : Rooted here root l t) (hfit : Fits root (q ++ [x])) (hdots : ".." ∉ q ++ [x])
    (hpaved : Paved t l q) (hn : node? t (l ++ (q ++ [x])) = none) :
    makeOne t here (root.below (q ++ [x])) = .ok (Keyed.put (l ++ (q ++ [x])) .directory t) := by
  rw [makeOne, if_neg (by simp [hfit.noNull]), locate_fits h hfit, follow_concat_paved hdots hfit.short hpaved]
  simp [hn]

theorem makeOne_of_some (h : Rooted here root l t) (hfit : Fits root (q ++ [x])) (hdots : ".." ∉ q ++ [x])
    (hpaved : Paved t l q) {n : Node} (hn : node? t (l ++ (q ++ [x])) = some n) :
    makeOne t here (root.below (q ++ [x])) = .error (.fileExists (root.below (q ++ [x])).text) := by
  rw [makeOne, if_neg (by simp [hfit.noNull]), locate_fits h hfit, follow_concat_paved hdots hfit.short hpaved]
  simp [hn]

theorem makeOne_of_missing (h : Rooted here root l t) (hfit : Fits root (q ++ [x])) (hdots : ".." ∉ q ++ [x])
    (hopen : Open t l q) (hpaved : ¬Paved t l q) :
    makeOne t here (root.below (q ++ [x])) = .error (.notFound (root.below (q ++ [x])).text) := by
  rw [makeOne, if_neg (by simp [hfit.noNull]), locate_fits h hfit,
    follow_concat_missing hdots hfit.short hopen hpaved]
  rfl

theorem makeOne_root (h : Rooted here root l t) :
    makeOne t here root = .error (.fileExists root.text) := by
  rw [makeOne, if_neg (by simp [h.noNull]), h.locate_eq]
  simp [h.node?_eq]

theorem orThere_of_directory {p : Path} {s : String} (h : at? t here p = some .directory) :
    orThere t here p (.fileExists s) = (.ok (), t) := by
  rw [orThere, isDirectory, h]
  rfl

def makeBelow (here : Location) (root : Path) (q : List String) (t : Tree) : Except Failure Unit × Tree :=
  makeDirectories true here (root.below q) t

theorem makeBelow_nil (h : Rooted here root l t) : makeBelow here root [] t = (.ok (), t) := by
  have hthere : orThere t here root (.fileExists root.text) = (.ok (), t) :=
    orThere_of_directory ((at?_of_locate h.locate_eq).trans h.node?_eq)
  rw [makeBelow, Path.below_nil, makeDirectories]
  have hroot : (⟨root.absolute, root.parts.reverse.reverse⟩ : Path) = root := by simp
  unfold makeAll
  simp only [hroot, makeOne_root h, if_true, hthere]

theorem makeBelow_concat (here : Location) (root : Path) (q : List String) (x : String) (t : Tree) :
    makeBelow here root (q ++ [x]) t =
      match makeOne t here (root.below (q ++ [x])) with
      | .ok t => (.ok (), t)
      | .error (.notFound _) =>
        match makeBelow here root q t with
        | (.error f, t) => (.error f, t)
        | (.ok (), t) =>
          match makeOne t here (root.below (q ++ [x])) with
          | .ok t => (.ok (), t)
          | .error (.notFound f) => (.error (.notFound f), t)
          | .error f => orThere t here (root.below (q ++ [x])) f
      | .error f => orThere t here (root.below (q ++ [x])) f := by
  have hparts : (root.below (q ++ [x])).parts.reverse = x :: (root.below q).parts.reverse := by
    simp [Path.below]
  have hpath : (⟨root.absolute, (x :: (root.below q).parts.reverse).reverse⟩ : Path) =
      root.below (q ++ [x]) := by
    simp [Path.below]
  rw [makeBelow, makeDirectories, hparts, makeAll]
  simp only [show (root.below (q ++ [x])).absolute = root.absolute from rfl, hpath, if_true]
  rfl

theorem Made.trans (h : Made t t₁ l q) (h' : Made t₁ t' l (q ++ [x])) : Made t t' l (q ++ [x]) where
  paved := h'.paved
  node?_eq m hm := by
    rw [h'.node?_eq m hm, h.node?_eq m fun r hr => hm r (hr.trans (List.prefix_append q [x]))]

theorem forall_prefix_concat {P : List String → Prop} :
    (∀ r, r <+: q ++ [x] → P r) ↔ (∀ r, r <+: q → P r) ∧ P (q ++ [x]) := by
  constructor
  · exact fun h => ⟨fun r hr => h r (hr.trans (List.prefix_append q [x])), h _ (List.prefix_refl _)⟩
  · rintro ⟨hq, hx⟩ r hr
    rcases List.prefix_concat_iff.1 hr with rfl | hr
    · exact hx
    · exact hq r hr

theorem Made.node?_concat (h : Made t t' l q) : node? t' (l ++ (q ++ [x])) = node? t (l ++ (q ++ [x])) := by
  refine h.node?_eq _ fun r hr he => ?_
  have hlen := hr.length_le
  rw [← List.append_cancel_left he, List.length_append, List.length_singleton] at hlen
  omega

theorem Made.refl (h : Paved t l q) : Made t t l q := ⟨h, fun _ _ => rfl⟩

theorem made_put (hpaved : Paved t l q) (hn : node? t (l ++ (q ++ [x])) = none) :
    Made t (Keyed.put (l ++ (q ++ [x])) .directory t) l (q ++ [x]) := by
  have hput := node?_put (n := .directory) (show node? t (l ++ (q ++ [x])) ≠ some .directory by simp [hn])
  refine ⟨forall_prefix_concat.2 ⟨fun r hr => ?_, ?_⟩, fun m hm => ?_⟩
  · rw [hput]
    split
    · rfl
    · exact hpaved r hr
  · rw [hput, if_pos rfl]
  · rw [hput, if_neg (hm _ (List.prefix_refl _))]

theorem makeOne_last (h : Rooted here root l t) (hfit : Fits root (q ++ [x])) (hdots : ".." ∉ q ++ [x])
    (hpaved : Paved t l q) (hn : ∀ c, node? t (l ++ (q ++ [x])) ≠ some (.file c)) :
    (∃ t', makeOne t here (root.below (q ++ [x])) = .ok t' ∧ Made t t' l (q ++ [x])) ∨
      makeOne t here (root.below (q ++ [x])) = .error (.fileExists (root.below (q ++ [x])).text) ∧
        (∀ s, orThere t here (root.below (q ++ [x])) (.fileExists s) = (.ok (), t)) ∧ Made t t l (q ++ [x]) := by
  cases hnode : node? t (l ++ (q ++ [x])) with
  | none => exact .inl ⟨_, makeOne_of_none h hfit hdots hpaved hnode, made_put hpaved hnode⟩
  | some n =>
      cases n with
      | file c => exact absurd hnode (hn c)
      | directory =>
          have hlocate := (locate_fits h hfit).trans (follow_concat_paved hdots hfit.short hpaved)
          exact .inr ⟨makeOne_of_some h hfit hdots hpaved hnode,
            fun _ => orThere_of_directory ((at?_of_locate hlocate).trans hnode),
            .refl (forall_prefix_concat.2 ⟨hpaved, hnode⟩)⟩

theorem makeBelow_ok (h : Rooted here root l t) (hfit : Fits root q) (hdots : ".." ∉ q) (hopen : Open t l q) :
    ∃ t', makeBelow here root q t = (.ok (), t') ∧ Made t t' l q := by
  induction q using List.reverseRecOn with
  | nil =>
      refine ⟨t, makeBelow_nil h, .refl fun r hr => ?_⟩
      rw [List.prefix_nil.1 hr, List.append_nil, h.node?_eq]
  | append_singleton q x ih =>
      obtain ⟨hq, hn⟩ := forall_prefix_concat.1 hopen
      rw [makeBelow_concat]
      by_cases hpaved : Paved t l q
      · rcases makeOne_last h hfit hdots hpaved hn with ⟨t', hone, hmade⟩ | ⟨hone, hthere, hmade⟩
        · exact ⟨t', by rw [hone], hmade⟩
        · exact ⟨t, by rw [hone]; exact hthere _, hmade⟩
      · obtain ⟨t₁, habove, hmade₁⟩ := ih (hfit.of_prefix (List.prefix_append q [x]))
          (fun hm => hdots (by simp [hm])) hq
        rw [makeOne_of_missing h hfit hdots hq hpaved]
        simp only [habove]
        have hlast : ∀ c, node? t₁ (l ++ (q ++ [x])) ≠ some (.file c) := by
          rwa [hmade₁.node?_concat]
        rcases makeOne_last (h.of_keeps hmade₁.keeps) hfit hdots hmade₁.paved hlast with
          ⟨t', hone, hmade⟩ | ⟨hone, hthere, hmade⟩
        · exact ⟨t', by rw [hone], hmade₁.trans hmade⟩
        · exact ⟨t₁, by rw [hone]; exact hthere _, hmade₁.trans hmade⟩

theorem orThere_ok {p : Path} {f : Failure} (h : orThere t here p f = (.ok (), t')) :
    at? t here p = some .directory := by
  rw [orThere] at h
  split at h
  next hd => simpa [isDirectory] using (Bool.and_eq_true_iff.1 hd).2
  next => cases h

/-- A path leads to a place at which a directory is or can be made. -/
def Leads (t : Tree) (here : Location) (p : Path) : Prop :=
  ∃ m, locate t here p = .ok m ∧ ∀ c, node? t m ≠ some (.file c)

theorem leads_of_at? {p : Path} (h : at? t here p = some .directory) : Leads t here p := by
  rw [at?] at h
  split at h
  next m hm => exact ⟨m, hm, fun c hc => by rw [h] at hc; cases hc⟩
  next => cases h

theorem leads_of_makeOne {p : Path} (h : makeOne t here p = .ok t₁) : Leads t here p := by
  rw [makeOne] at h
  split at h
  · cases h
  · split at h
    · cases h
    next m hm =>
      refine ⟨m, hm, fun c hc => ?_⟩
      rw [hc] at h
      cases h

theorem locate_of_notFound {p : Path} {f : String} (h : makeOne t here p = .error (.notFound f)) :
    locate t here p = .error .missing := by
  rw [makeOne] at h
  split at h
  · cases h
  · split at h
    next o ho =>
      cases o with
      | missing => exact ho
      | notADirectory => cases h
      | tooLong => cases h
    next => split at h <;> cases h

theorem leads_of_makeBelow (hok : makeBelow here root (q ++ [x]) t = (.ok (), t')) :
    Leads t here (root.below (q ++ [x])) ∨ locate t here (root.below (q ++ [x])) = .error .missing ∧
      ∃ t₁, makeBelow here root q t = (.ok (), t₁) ∧ Leads t₁ here (root.below (q ++ [x])) := by
  rw [makeBelow_concat] at hok
  split at hok
  next hone => exact .inl (leads_of_makeOne hone)
  next hone =>
    refine .inr ⟨locate_of_notFound hone, ?_⟩
    split at hok
    · cases hok
    next t₁ habove =>
      refine ⟨t₁, habove, ?_⟩
      split at hok
      next hone => exact leads_of_makeOne hone
      next => cases hok
      next => exact leads_of_at? (orThere_ok hok)
  next => exact .inl (leads_of_at? (orThere_ok hok))

theorem Leads.fits (h : Rooted here root l t) (hnull : (root.below (q ++ [x])).hasNull = false)
    (hdots : ".." ∉ q ++ [x]) (hleads : Leads t here (root.below (q ++ [x]))) :
    Fits root (q ++ [x]) ∧ Paved t l q ∧ ∀ c, node? t (l ++ (q ++ [x])) ≠ some (.file c) := by
  obtain ⟨m, hm, hfile⟩ := hleads
  rw [h.locate_below] at hm
  split at hm
  · cases hm
  next hlong =>
    obtain ⟨hpaved, hshort⟩ := follow_concat_ok hdots hm
    rw [follow_concat_paved hdots hshort hpaved] at hm
    cases hm
    exact ⟨⟨hnull, by simpa using hlong, hshort⟩, hpaved, hfile⟩

theorem open_of_makeBelow (h : Rooted here root l t) (hnull : (root.below q).hasNull = false) (hdots : ".." ∉ q)
    (hok : makeBelow here root q t = (.ok (), t')) : Fits root q ∧ Open t l q := by
  induction q using List.reverseRecOn generalizing t' with
  | nil =>
      have hshort : Short [] := fun x hx => by cases hx
      refine ⟨⟨hnull, ?_, hshort⟩, fun r hr c => ?_⟩
      · have hl := h.locate_eq
        rw [locate] at hl
        split at hl
        · cases hl
        next hlong => simpa using hlong
      · rw [List.prefix_nil.1 hr, List.append_nil, h.node?_eq]
        exact fun e => by cases e
  | append_singleton q x ih =>
      rcases leads_of_makeBelow hok with hleads | ⟨-, t₁, habove, hleads⟩
      · obtain ⟨hfit, hpaved, hfile⟩ := hleads.fits h hnull hdots
        exact ⟨hfit, forall_prefix_concat.2 ⟨hpaved.open_, hfile⟩⟩
      · have hnull' : (root.below q).hasNull = false := by
          rw [Path.below_append, Path.hasNull_below, Bool.or_eq_false_iff] at hnull
          exact hnull.1
        have hdots' : ".." ∉ q := fun hm => hdots (by simp [hm])
        obtain ⟨hfit', hopen⟩ := ih hnull' hdots' habove
        obtain ⟨t₂, hmake, hmade⟩ := makeBelow_ok h hfit' hdots' hopen
        rw [habove] at hmake
        cases hmake
        obtain ⟨hfit, -, hfile⟩ := hleads.fits (h.of_keeps hmade.keeps) hnull hdots
        refine ⟨hfit, forall_prefix_concat.2 ⟨hopen, ?_⟩⟩
        rwa [← hmade.node?_concat]

theorem rooted_of_makeOne (h : makeOne t here root = .ok t₁) : ∃ l, Rooted here root l t₁ := by
  rw [makeOne] at h
  split at h
  · cases h
  next hnull =>
    split at h
    · cases h
    next l hl =>
      split at h
      · cases h
      next hn =>
        have hput := node?_put (t := t) (l := l) (n := .directory) fun e => hn (by simp [e])
        cases h
        have hkeeps : Keeps t (Keyed.put l .directory t) := by
          intro m hm
          rw [hput]
          split
          · rfl
          · exact hm
        refine ⟨l, by simpa using hnull, ?_, by rw [hput, if_pos rfl]⟩
        unfold locate at hl ⊢
        split at hl
        · cases hl
        next hlong => rw [if_neg hlong, follow_of_keeps hkeeps hl]

theorem noNull_of_makeAll {absolute mayExist : Bool} {parts : List String}
    (h : makeAll absolute here mayExist parts t = (.ok (), t')) :
    (⟨absolute, parts.reverse⟩ : Path).hasNull = false := by
  rw [Bool.eq_false_iff]
  intro hnull
  have hone : makeOne t here ⟨absolute, parts.reverse⟩ = .error .nullInPath := by rw [makeOne, if_pos hnull]
  unfold makeAll at h
  dsimp only at h
  rw [hone] at h
  cases mayExist <;> cases h

theorem settle_ok {mayExist : Bool} {p : Path} {f : Failure}
    (h : (if mayExist then orThere t here p f else (.error f, t)) = (.ok (), t')) : at? t' here p = some .directory := by
  split at h
  · obtain rfl : t = t' := congrArg Prod.snd h
    exact orThere_ok h
  · cases h

/-- Where a folder has just been made or was there already, its path leads to it. -/
theorem rooted_of_makeDirectories {mayExist : Bool} (h : makeDirectories mayExist here root t = (.ok (), t₁)) :
    ∃ l, Rooted here root l t₁ := by
  have hroot : (⟨root.absolute, root.parts.reverse.reverse⟩ : Path) = root := by rw [List.reverse_reverse]
  have hnull := noNull_of_makeAll h
  rw [hroot] at hnull
  have hthere {p : Path} (hp : p.hasNull = false) (h : at? t₁ here p = some .directory) : ∃ l, Rooted here p l t₁ := by
    rw [at?] at h
    split at h
    next l hl => exact ⟨l, hp, hl, h⟩
    next => cases h
  rw [makeDirectories] at h
  unfold makeAll at h
  dsimp only at h
  rw [hroot] at h
  split at h
  next hone =>
    cases h
    exact rooted_of_makeOne hone
  next =>
    split at h
    · cases h
    · split at h
      · cases h
      · split at h
        next hone =>
          cases h
          exact rooted_of_makeOne hone
        next => cases h
        next => exact hthere hnull (settle_ok h)
  next => exact hthere hnull (settle_ok h)

theorem write_below (h : Rooted here root l t) (hfit : Fits root (q ++ [x])) (hdots : ".." ∉ q ++ [x])
    (hpaved : Paved t l q) (hn : node? t (l ++ (q ++ [x])) ≠ some .directory) (c : Content) :
    write t here (root.below (q ++ [x])) c = .ok (Keyed.put (l ++ (q ++ [x])) (.file c) t) := by
  rw [write, if_neg (by simp [hfit.noNull]), locate_fits h hfit, follow_concat_paved hdots hfit.short hpaved]
  dsimp only
  split
  next hd => exact absurd hd hn
  next => rfl

theorem leads_of_write {p : Path} {c : Content} (h : write t here p c = .ok t') :
    p.hasNull = false ∧ ∃ m, locate t here p = .ok m ∧ node? t m ≠ some .directory := by
  rw [write] at h
  split at h
  · cases h
  next hnull =>
    split at h
    · cases h
    next m hm =>
      refine ⟨by simpa using hnull, m, hm, fun hd => ?_⟩
      rw [hd] at h
      cases h

theorem fits_of_write (h : Rooted here root l t) (hdots : ".." ∉ q ++ [x]) {c : Content}
    (hok : write t here (root.below (q ++ [x])) c = .ok t') :
    Fits root (q ++ [x]) ∧ node? t (l ++ (q ++ [x])) ≠ some .directory := by
  obtain ⟨hnull, m, hm, hn⟩ := leads_of_write hok
  rw [h.locate_below] at hm
  split at hm
  · cases hm
  next hlong =>
    obtain ⟨hpaved, hshort⟩ := follow_concat_ok hdots hm
    rw [follow_concat_paved hdots hshort hpaved] at hm
    cases hm
    exact ⟨⟨hnull, by simpa using hlong, hshort⟩, hn⟩

end Tree

end ApiScaffold
