import ApiScaffold.Proofs.Path
import ApiScaffold.Tree

namespace ApiScaffold

namespace Tree

variable {t t' t₁ : Tree} {l m : Location} {q r : List String} {x : String}

theorem node?_put {n : Node} (h : node? t l ≠ some .directory) (m : Location) :
    node? (Keyed.put l n t) m = if m = l then some n else node? t m := by
  have hl : l ≠ [] := fun e => h (by rw [e, node?])
  by_cases hm : m = l
  · rw [if_pos hm, hm]
    cases l with
    | nil => exact absurd rfl hl
    | cons x l => exact Keyed.get?_put_self _ n t
  · rw [if_neg hm]
    cases m with
    | nil => rfl
    | cons y m => exact Keyed.get?_put_of_ne hm n t

/-- Every directory is still there. -/
def Keeps (t t' : Tree) : Prop := ∀ l, node? t l = some .directory → node? t' l = some .directory

theorem follow_append (t : Tree) (l : Location) (q r : List String) :
    follow t l (q ++ r) = (follow t l q).bind fun m => follow t m r := by
  induction q generalizing l with
  | nil => rfl
  | cons x q ih =>
      rw [List.cons_append, follow, follow]
      split
      · rfl
      · rfl
      · split
        · rfl
        · exact ih _

theorem follow_of_keeps (h : Keeps t t') (hf : follow t l q = .ok m) : follow t' l q = .ok m := by
  induction q generalizing l with
  | nil => exact hf
  | cons x q ih =>
      rw [follow] at hf
      split at hf
      · cases hf
      · cases hf
      next hl =>
        split at hf
        · cases hf
        next hx =>
          rw [follow, h l hl]
          dsimp only
          rw [if_neg hx]
          exact ih hf

/-- Directories lead down from `l` to `l ++ q`. -/
def Paved (t : Tree) (l : Location) (q : List String) : Prop :=
  ∀ r, r <+: q → node? t (l ++ r) = some .directory

/-- No file stands on the way down from `l` to `l ++ q`. -/
def Open (t : Tree) (l : Location) (q : List String) : Prop :=
  ∀ r, r <+: q → ∀ c, node? t (l ++ r) ≠ some (.file c)

theorem forall_prefix_cons {P : Location → Prop} :
    (∀ r, r <+: x :: q → P (l ++ r)) ↔ P l ∧ ∀ r, r <+: q → P (l ++ [x] ++ r) := by
  constructor
  · intro h
    refine ⟨by simpa using h [] List.nil_prefix, fun r hr => ?_⟩
    simpa using h (x :: r) ((List.prefix_cons_inj x).2 hr)
  · rintro ⟨hl, h⟩ r hr
    rcases List.prefix_cons_iff.1 hr with rfl | ⟨s, rfl, hs⟩
    · simpa using hl
    · simpa using h s hs

theorem Paved.cons_iff : Paved t l (x :: q) ↔ node? t l = some .directory ∧ Paved t (l ++ [x]) q :=
  forall_prefix_cons (P := fun m => node? t m = some .directory)

theorem Open.cons_iff :
    Open t l (x :: q) ↔ (∀ c, node? t l ≠ some (.file c)) ∧ Open t (l ++ [x]) q :=
  forall_prefix_cons (P := fun m => ∀ c, node? t m ≠ some (.file c))

theorem Paved.open_ (h : Paved t l q) : Open t l q := by
  intro r hr c
  rw [h r hr]
  exact fun e => by cases e

def Short (q : List String) : Prop := ∀ x ∈ q, Path.isLongPart x = false

theorem next_eq (hx : x ≠ "..") : next l x = l ++ [x] := if_neg hx

theorem follow_cons (hl : node? t l = some .directory) (hlong : Path.isLongPart x = false) (hx : x ≠ "..") :
    follow t l (x :: q) = follow t (l ++ [x]) q := by
  rw [follow, hl]
  dsimp only
  rw [if_neg (by simp [hlong]), next_eq hx]

theorem follow_paved (hdots : ".." ∉ q) (hshort : Short q) (h : Paved t l q) :
    follow t l q = .ok (l ++ q) := by
  induction q generalizing l with
  | nil => simp [follow]
  | cons x q ih =>
      obtain ⟨hl, hq⟩ := Paved.cons_iff.1 h
      rw [follow_cons hl (hshort x (by simp)) fun e => hdots (by simp [e]),
        ih (fun hm => hdots (List.mem_cons_of_mem _ hm)) (fun y hy => hshort y (List.mem_cons_of_mem _ hy)) hq]
      simp

theorem follow_concat_paved (hdots : ".." ∉ q ++ [x]) (hshort : Short (q ++ [x])) (h : Paved t l q) :
    follow t l (q ++ [x]) = .ok (l ++ (q ++ [x])) := by
  have hq := follow_paved (fun hm => hdots (by simp [hm])) (fun y hy => hshort y (by simp [hy])) h
  rw [follow_append, hq]
  change follow t (l ++ q) [x] = _
  rw [follow_cons (h q (List.prefix_refl q)) (hshort x (by simp)) fun e => hdots (by simp [e])]
  simp [follow]

theorem Open.node?_cases (h : Open t l q) : node? t l = none ∨ node? t l = some .directory := by
  have hl := h [] List.nil_prefix
  rw [List.append_nil] at hl
  cases hn : node? t l with
  | none => exact .inl rfl
  | some n =>
      cases n with
      | directory => exact .inr rfl
      | file c => exact absurd hn (hl c)

theorem follow_of_none (hl : node? t l = none) : follow t l (x :: q) = .error .missing := by
  rw [follow, hl]

theorem follow_concat_missing (hdots : ".." ∉ q ++ [x]) (hshort : Short (q ++ [x])) (hopen : Open t l q)
    (h : ¬Paved t l q) : follow t l (q ++ [x]) = .error .missing := by
  induction q generalizing l with
  | nil =>
      refine follow_of_none (hopen.node?_cases.resolve_right fun hl => h fun r hr => ?_)
      rw [List.prefix_nil.1 hr, List.append_nil, hl]
  | cons y q ih =>
      rcases hopen.node?_cases with hl | hl
      · exact follow_of_none hl
      · rw [List.cons_append, follow_cons hl (hshort y (by simp)) fun e => hdots (by simp [e])]
        exact ih (fun hm => hdots (List.mem_cons_of_mem _ hm))
          (fun z hz => hshort z (List.mem_cons_of_mem _ hz))
          (Open.cons_iff.1 hopen).2 fun hq => h (Paved.cons_iff.2 ⟨hl, hq⟩)

theorem follow_concat_ok (hdots : ".." ∉ q ++ [x]) (h : follow t l (q ++ [x]) = .ok m) :
    Paved t l q ∧ Short (q ++ [x]) := by
  induction q generalizing l with
  | nil =>
      rw [List.nil_append, follow] at h
      split at h
      · cases h
      · cases h
      next hl =>
        split at h
        · cases h
        next hx =>
          refine ⟨fun r hr => ?_, fun y hy => ?_⟩
          · rw [List.prefix_nil.1 hr, List.append_nil, hl]
          · rw [List.mem_singleton.1 hy]
            simpa using hx
  | cons y q ih =>
      rw [List.cons_append, follow] at h
      split at h
      · cases h
      · cases h
      next hl =>
        split at h
        · cases h
        next hy =>
          rw [next_eq fun e => hdots (by simp [e])] at h
          obtain ⟨hpaved, hshort⟩ := ih (fun hm => hdots (List.mem_cons_of_mem _ hm)) h
          refine ⟨Paved.cons_iff.2 ⟨hl, hpaved⟩, fun z hz => ?_⟩
          rcases List.mem_cons.1 hz with rfl | hz
          · simpa using hy
          · exact hshort z hz

/-- The path `root` leads from `here` to a directory at `l`. -/
structure Rooted (here : Location) (root : Path) (l : Location) (t : Tree) : Prop where
  noNull : root.hasNull = false
  locate_eq : locate t here root = .ok l
  node?_eq : node? t l = some .directory

variable {here : Location} {root : Path}

theorem Rooted.of_keeps (h : Rooted here root l t) (hk : Keeps t t') : Rooted here root l t' := by
  refine ⟨h.noNull, ?_, hk l h.node?_eq⟩
  have hl := h.locate_eq
  unfold locate at hl ⊢
  split at hl
  · cases hl
  next hlong => rw [if_neg hlong, follow_of_keeps hk hl]

theorem Rooted.locate_below (h : Rooted here root l t) (q : List String) :
    locate t here (root.below q) = if (root.below q).isLong then .error .tooLong else follow t l q := by
  have hl := h.locate_eq
  unfold locate at hl ⊢
  split at hl
  · cases hl
  · rw [show (root.below q).parts = root.parts ++ q from rfl, follow_append,
      show start here (root.below q) = start here root from rfl, hl]
    rfl

/-- A system takes the path that goes on from `root` with the parts `q`, whatever is there. -/
structure Fits (root : Path) (q : List String) : Prop where
  noNull : (root.below q).hasNull = false
  notLong : (root.below q).isLong = false
  short : Short q

theorem Fits.of_prefix (h : Fits root q) (hr : r <+: q) : Fits root r := by
  obtain ⟨s, rfl⟩ := hr
  refine ⟨?_, ?_, fun x hx => h.short x (by simp [hx])⟩
  · have hnull := h.noNull
    rw [Path.below_append, Path.hasNull_below, Bool.or_eq_false_iff] at hnull
    exact hnull.1
  · refine Bool.eq_false_iff.2 fun hlong => ?_
    have := Path.isLong_of_below hlong s
    rw [← Path.below_append, h.notLong] at this
    exact Bool.false_ne_true this

/-- `t'` is `t` with directories all the way down from `l` to `l ++ q`. -/
structure Made (t t' : Tree) (l : Location) (q : List String) : Prop where
  paved : Paved t' l q
  node?_eq : ∀ m, (∀ r, r <+: q → m ≠ l ++ r) → node? t' m = node? t m

theorem Made.keeps (h : Made t t' l q) : Keeps t t' := by
  intro m hm
  by_cases hr : ∃ r, r <+: q ∧ m = l ++ r
  · obtain ⟨r, hr, rfl⟩ := hr
    exact h.paved r hr
  · rw [h.node?_eq m fun r hp he => hr ⟨r, hp, he⟩, hm]

end Tree

end ApiScaffold
