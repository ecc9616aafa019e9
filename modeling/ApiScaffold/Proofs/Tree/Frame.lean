import ApiScaffold.Proofs.Tree.Action

namespace ApiScaffold

namespace Tree

variable {t t' t₁ : Tree} {l m : Location} {here : Location} {p : Path} {as : List Action} {P Q : Location → Prop}

theorem follow_eq_foldl {q : List String} (h : follow t l q = .ok m) : m = q.foldl next l := by
  induction q generalizing l with
  | nil => exact (Except.ok.inj h).symm
  | cons x q ih =>
      rw [follow] at h
      split at h
      · cases h
      · cases h
      · split at h
        · cases h
        · exact ih h

theorem locate_eq_foldl (h : locate t here p = .ok l) : l = p.parts.foldl next (start here p) := by
  unfold locate at h
  split at h
  · cases h
  · exact follow_eq_foldl h

/-- Files are altered only at the places, and none goes; nor does a folder. -/
structure AltersOnly (P : Location → Prop) (t t' : Tree) : Prop where
  folders : Keeps t t'
  files : ∀ m c, node? t m = some (.file c) → ∃ d, node? t' m = some (.file d)
  others : ∀ m, ¬P m → ∀ c, node? t' m = some (.file c) ↔ node? t m = some (.file c)

namespace AltersOnly

theorem refl (t : Tree) : AltersOnly P t t := ⟨fun _ h => h, fun _ c h => ⟨c, h⟩, fun _ _ _ => .rfl⟩

theorem trans (h : AltersOnly P t t₁) (h' : AltersOnly P t₁ t') : AltersOnly P t t' where
  folders := h.folders.trans h'.folders
  files m c hm := by
    obtain ⟨d, hd⟩ := h.files m c hm
    exact h'.files m d hd
  others m hP c := (h'.others m hP c).trans (h.others m hP c)

theorem mono (h : AltersOnly P t t') (hPQ : ∀ m, P m → Q m) : AltersOnly Q t t' :=
  ⟨h.folders, h.files, fun m hQ => h.others m fun hP => hQ (hPQ m hP)⟩

theorem of_makeOne (h : makeOne t here p = .ok t') : AltersOnly P t t' := by
  have hgrows := grows_makeOne h
  unfold makeOne at h
  split at h
  · cases h
  · split at h
    · cases h
    next l hl =>
      split at h
      · cases h
      next hn =>
        cases h
        have hnone : node? t l = none := by simpa using hn
        have hput := node?_put (t := t) (l := l) (n := .directory) (by simp [hnone])
        refine ⟨hgrows.keeps, fun m c hm => ⟨c, hgrows m _ hm⟩, fun m _ c => ⟨fun hm => ?_, fun hm => hgrows m _ hm⟩⟩
        rw [hput] at hm
        split at hm
        · cases hm
        · exact hm

theorem of_put {c : Content} (hP : P l) (h : node? t l ≠ some .directory) :
    AltersOnly P t (Keyed.put l (.file c) t) := by
  have hput := node?_put (n := .file c) h
  refine ⟨keeps_put h, fun m d hm => ?_, fun m hm d => ?_⟩
  · rw [hput]
    split
    · exact ⟨c, rfl⟩
    · exact ⟨d, hm⟩
  · have hne : m ≠ l := fun he => hm (he ▸ hP)
    rw [hput, if_neg hne]

theorem of_folder (mayExist : Bool) (here : Location) (p : Path) (t : Tree) :
    AltersOnly P t (makeDirectories mayExist here p t).2 :=
  relates_makeAll .refl .trans .of_makeOne p.absolute here mayExist p.parts.reverse t

theorem of_action (a : Action) (h : ∀ p text, a = .file p text → P (p.parts.foldl next (start here p))) (t : Tree) :
    AltersOnly P t (a.apply here t).2 := by
  cases a with
  | newFolder p => exact of_folder false here p t
  | folder p => exact of_folder true here p t
  | file p text =>
      rw [Action.apply]
      rcases writeText_alters here t p text with hsame | ⟨l, c, hl, hdir, hput⟩
      · rw [hsame]
        exact refl t
      · rw [hput]
        exact of_put (locate_eq_foldl hl ▸ h p text rfl) hdir

/-- Whether or not all of the actions can be done, they alter nothing but the places of their files. -/
theorem of_actions (h : ∀ p text, .file p text ∈ as → P (p.parts.foldl next (start here p))) (t : Tree) :
    AltersOnly P t (applyAll here t as).2 := by
  induction as generalizing t with
  | nil => exact refl t
  | cons a as ih =>
      have hfirst := of_action a (fun p text he => h p text (he ▸ List.mem_cons_self)) t
      have hrest := ih fun p text hm => h p text (List.mem_cons_of_mem a hm)
      rw [applyAll]
      split
      next t₁ ha =>
        rw [ha] at hfirst
        exact hfirst.trans (hrest t₁)
      next ha =>
        rw [ha] at hfirst
        exact hfirst

end AltersOnly

end Tree

end ApiScaffold
