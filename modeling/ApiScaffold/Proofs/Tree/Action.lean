import ApiScaffold.Proofs.Spelled
import ApiScaffold.Proofs.Tree.Make

namespace ApiScaffold

namespace Tree

inductive Action
  /-- A folder is made, where nothing may be yet. -/
  | newFolder (p : Path)
  | folder (p : Path)
  | file (p : Path) (text : Spelled String)

variable {t t' t₁ : Tree} {l m : Location} {here : Location} {p : Path} {a : Action} {as bs : List Action}
  {text : Spelled String} {f : Failure}

def Action.apply (here : Location) (t : Tree) : Action → Except Failure Unit × Tree
  | .newFolder p => makeDirectories false here p t
  | .folder p => makeDirectories true here p t
  | .file p text => t.writeText here p text

/-- A file system can be told of the action: no null character is in its path, and its text can be encoded. -/
def Action.IsExpressible : Action → Prop
  | .newFolder p | .folder p => p.hasNull = false
  | .file p text => p.hasNull = false ∧ text.IsText

instance (a : Action) : Decidable a.IsExpressible :=
  match a with
  | .newFolder p => inferInstanceAs (Decidable (p.hasNull = false))
  | .folder p => inferInstanceAs (Decidable (p.hasNull = false))
  | .file p text => inferInstanceAs (Decidable (p.hasNull = false ∧ text.IsText))

/-- Applies actions in turn, up to the first that fails. -/
def applyAll (here : Location) : Tree → List Action → Except Failure Unit × Tree
  | t, [] => (.ok (), t)
  | t, a :: as =>
    match a.apply here t with
    | (.ok (), t) => applyAll here t as
    | (.error f, t) => (.error f, t)

def isRefused : Except Failure Unit → Bool
  | .ok _ => false
  | .error f => f.isSystem

theorem applyAll_append (here : Location) (t : Tree) (as bs : List Action) :
    applyAll here t (as ++ bs) = match applyAll here t as with
      | (.ok (), t) => applyAll here t bs
      | (.error f, t) => (.error f, t) := by
  induction as generalizing t with
  | nil => rfl
  | cons a as ih =>
      rw [List.cons_append, applyAll, applyAll]
      split
      · exact ih _
      · rfl

def Grows (t t' : Tree) : Prop := ∀ l n, node? t l = some n → node? t' l = some n

theorem Grows.refl (t : Tree) : Grows t t := fun _ _ h => h

theorem Grows.trans (h : Grows t t₁) (h' : Grows t₁ t') : Grows t t' := fun l n hn => h' l n (h l n hn)

theorem Grows.keeps (h : Grows t t') : Keeps t t' := fun l hl => h l _ hl

theorem Keeps.trans (h : Keeps t t₁) (h' : Keeps t₁ t') : Keeps t t' := fun l hl => h' l (h l hl)

theorem grows_makeOne (h : makeOne t here p = .ok t') : Grows t t' := by
  unfold makeOne at h
  split at h
  · cases h
  · split at h
    · cases h
    next l hl =>
      split at h
      · cases h
      next hn =>
        cases h
        have hnone : node? t l = none := by simpa using hn
        have hput := node?_put (t := t) (l := l) (n := .directory) (by simp [hnone])
        intro m n hm
        rw [hput]
        split
        next he =>
          rw [he, hnone] at hm
          cases hm
        next => exact hm

theorem relates_makeAll {R : Tree → Tree → Prop} (hrefl : ∀ t, R t t) (htrans : ∀ {t t₁ t'}, R t t₁ → R t₁ t' → R t t')
    (hone : ∀ {here t t' p}, makeOne t here p = .ok t' → R t t') (absolute : Bool) (here : Location) (mayExist : Bool)
    (parts : List String) (t : Tree) : R t (makeAll absolute here mayExist parts t).2 := by
  have hsettle (mayExist : Bool) (p : Path) (t : Tree) (f : Failure) :
      (if mayExist then orThere t here p f else (.error f, t)).2 = t := by
    split <;> rfl
  induction parts generalizing mayExist t with
  | nil =>
      unfold makeAll
      dsimp only
      split
      next h => exact hone h
      next => exact hrefl t
      next =>
        rw [hsettle]
        exact hrefl t
  | cons x above ih =>
      unfold makeAll
      dsimp only
      split
      next h => exact hone h
      next =>
        have habove := ih true t
        split
        next hmade =>
          rw [hmade] at habove
          exact habove
        next t₁ hmade =>
          rw [hmade] at habove
          split
          next h => exact htrans habove (hone h)
          next => exact habove
          next =>
            rw [hsettle]
            exact habove
      next =>
        rw [hsettle]
        exact hrefl t

theorem grows_makeAll (absolute : Bool) (here : Location) (mayExist : Bool) (parts : List String) (t : Tree) :
    Grows t (makeAll absolute here mayExist parts t).2 :=
  relates_makeAll .refl .trans grows_makeOne absolute here mayExist parts t

theorem write_eq_ok {c : Content} (h : write t here p c = .ok t') :
    ∃ l, locate t here p = .ok l ∧ node? t l ≠ some .directory ∧ t' = Keyed.put l (.file c) t := by
  unfold write at h
  split at h
  · cases h
  · split at h
    · cases h
    next l hl =>
      split at h
      · cases h
      next hn =>
        cases h
        exact ⟨l, hl, hn, rfl⟩

theorem keeps_put {n : Node} (h : node? t l ≠ some .directory) : Keeps t (Keyed.put l n t) := by
  intro m hm
  rw [node?_put (n := n) h]
  split
  next he =>
    rw [he] at hm
    exact absurd hm h
  next => exact hm

theorem writeText_alters (here : Location) (t : Tree) (p : Path) (text : Spelled String) :
    (t.writeText here p text).2 = t ∨ ∃ l c, locate t here p = .ok l ∧ node? t l ≠ some .directory ∧
      (t.writeText here p text).2 = Keyed.put l (.file c) t := by
  rw [writeText]
  cases hw : t.write here p (.text (text.encoded.toOption.getD "")) with
  | error f => exact .inl rfl
  | ok t₁ =>
      obtain ⟨l, hl, hdir, rfl⟩ := write_eq_ok hw
      exact .inr ⟨l, _, hl, hdir, rfl⟩

theorem writeText_of_isText (h : text.IsText) : t.writeText here p text = match t.write here p (.text text.shown) with
    | .ok t => (.ok (), t)
    | .error f => (.error f, t) := by
  rw [writeText, text.encoded_of_isText h]
  rfl

theorem isText_of_writeText (h : t.writeText here p text = (.ok (), t')) : text.IsText := by
  by_contra htext
  obtain ⟨start, codes, herror⟩ := text.encoded_of_not_isText htext
  rw [writeText, herror] at h
  split at h <;> cases h

theorem keeps_apply (here : Location) (t : Tree) (a : Action) : Keeps t (a.apply here t).2 := by
  cases a with
  | newFolder p => exact (grows_makeAll _ _ _ _ t).keeps
  | folder p => exact (grows_makeAll _ _ _ _ t).keeps
  | file p text =>
      rw [Action.apply]
      rcases writeText_alters here t p text with hsame | ⟨l, c, -, hdir, hput⟩
      · rw [hsame]
        exact (Grows.refl t).keeps
      · rw [hput]
        exact keeps_put hdir

theorem keeps_applyAll (here : Location) (t : Tree) (as : List Action) : Keeps t (applyAll here t as).2 := by
  induction as generalizing t with
  | nil => exact (Grows.refl t).keeps
  | cons a as ih =>
      have ha := keeps_apply here t a
      rw [applyAll]
      split
      next t₁ h =>
        rw [h] at ha
        exact ha.trans (ih t₁)
      next h =>
        rw [h] at ha
        exact ha

theorem locate_of_keeps (h : Keeps t t') (hl : locate t here p = .ok l) : locate t' here p = .ok l := by
  unfold locate at hl ⊢
  split at hl
  · cases hl
  next hlong => rw [if_neg hlong, follow_of_keeps h hl]

theorem applyAll_cons_ok {a : Action} (h : applyAll here t (a :: as) = (.ok (), t')) :
    ∃ t₁, a.apply here t = (.ok (), t₁) ∧ applyAll here t₁ as = (.ok (), t') := by
  rw [applyAll] at h
  split at h
  next t₁ ha => exact ⟨t₁, ha, h⟩
  next => cases h

theorem apply_file_ok (h : (Action.file p text).apply here t = (.ok (), t')) :
    ∃ l, locate t here p = .ok l ∧ node? t l ≠ some .directory ∧
      t' = Keyed.put l (.file (.text text.shown)) t := by
  have htext := isText_of_writeText h
  rw [Action.apply, writeText_of_isText htext] at h
  split at h
  next hw =>
    cases h
    exact write_eq_ok hw
  next => cases h

theorem rooted_of_applyAll (h : applyAll here t as = (.ok (), t')) (hp : .folder p ∈ as) : ∃ l, Rooted here p l t' := by
  induction as generalizing t with
  | nil => cases hp
  | cons a as ih =>
      obtain ⟨t₁, ha, hrest⟩ := applyAll_cons_ok h
      rcases List.mem_cons.1 hp with rfl | hp
      · obtain ⟨l, hl⟩ := rooted_of_makeDirectories ha
        have hkeeps := keeps_applyAll here t₁ as
        rw [hrest] at hkeeps
        exact ⟨l, hl.of_keeps hkeeps⟩
      · exact ih hrest hp

theorem node?_applyAll {n : Node} (h : applyAll here t as = (.ok (), t')) (hn : node? t l = some n)
    (has : ∀ q d, .file q d ∈ as → locate t' here q ≠ .ok l) :
    node? t' l = some n := by
  induction as generalizing t with
  | nil =>
      cases h
      exact hn
  | cons a as ih =>
      obtain ⟨t₁, ha, hrest⟩ := applyAll_cons_ok h
      refine ih hrest ?_ fun q d hq => has q d (List.mem_cons_of_mem a hq)
      have hkeeps := keeps_applyAll here t₁ as
      rw [hrest] at hkeeps
      have hgrown (mayExist : Bool) (p : Path) (hp : makeDirectories mayExist here p t = (.ok (), t₁)) :
          node? t₁ l = some n := by
        have hgrows := grows_makeAll p.absolute here mayExist p.parts.reverse t
        have htree : (makeAll p.absolute here mayExist p.parts.reverse t).2 = t₁ := congrArg Prod.snd hp
        rw [htree] at hgrows
        exact hgrows l n hn
      cases a with
      | newFolder p => exact hgrown false p ha
      | folder p => exact hgrown true p ha
      | file p d =>
          obtain ⟨m, hm, hdir, rfl⟩ := apply_file_ok ha
          have hput := node?_put (n := .file (.text d.shown)) hdir
          have hkept : Keeps t (Keyed.put m (.file (.text d.shown)) t) := keeps_put hdir
          have hm' : locate t' here p = .ok m := locate_of_keeps hkeeps (locate_of_keeps hkept hm)
          have hne : l ≠ m := by
            rintro rfl
            exact has p d List.mem_cons_self hm'
          rw [hput l, if_neg hne, hn]

/-- The text of a file stands at the place of its path, unless one of the later files has that place. -/
theorem applyAll_file (h : applyAll here t (as ++ .file p text :: bs) = (.ok (), t')) :
    ∃ l, locate t' here p = .ok l ∧
      ((∀ q d, .file q d ∈ bs → locate t' here q ≠ .ok l) → node? t' l = some (.file (.text text.shown))) := by
  rw [applyAll_append] at h
  split at h
  next t₁ has =>
    obtain ⟨t₂, hfile, hbs⟩ := applyAll_cons_ok h
    obtain ⟨l, hl, hdir, rfl⟩ := apply_file_ok hfile
    have hput := node?_put (n := .file (.text text.shown)) hdir
    have hkept : Keeps t₁ (Keyed.put l (.file (.text text.shown)) t₁) := keeps_put hdir
    have hkeeps := keeps_applyAll here (Keyed.put l (.file (.text text.shown)) t₁) bs
    rw [hbs] at hkeeps
    refine ⟨l, locate_of_keeps hkeeps (locate_of_keeps hkept hl), fun hlater => ?_⟩
    exact node?_applyAll hbs (by rw [hput, if_pos rfl]) hlater
  next => cases h

theorem isSystem_failure (o : Obstacle) (p : Path) : (o.failure p).isSystem = true := by cases o <;> rfl

theorem isSystem_of_makeOne (hnull : p.hasNull = false) (h : makeOne t here p = .error f) : f.isSystem = true := by
  rw [makeOne, if_neg (by simp [hnull])] at h
  split at h
  next o _ =>
    cases h
    exact isSystem_failure o p
  · split at h <;> cases h
    rfl

theorem settle_error {mayExist : Bool} {f' : Failure}
    (h : (if mayExist then orThere t here p f else (.error f, t)) = (.error f', t')) : f' = f := by
  split at h
  · rw [orThere] at h
    split at h <;> cases h
    rfl
  · cases h
    rfl

theorem isSystem_of_makeAll {absolute mayExist : Bool} {parts : List String}
    (hnull : (⟨absolute, parts.reverse⟩ : Path).hasNull = false)
    (h : makeAll absolute here mayExist parts t = (.error f, t')) : f.isSystem = true := by
  induction parts generalizing mayExist t t' f with
  | nil =>
      unfold makeAll at h
      dsimp only at h
      split at h
      · cases h
      next hone =>
        cases h
        exact isSystem_of_makeOne hnull hone
      next hone =>
        rw [settle_error h]
        exact isSystem_of_makeOne hnull hone
  | cons x above ih =>
      have habove : (⟨absolute, above.reverse⟩ : Path).hasNull = false := by
        rw [Path.hasNull, List.reverse_cons, List.any_append, Bool.or_eq_false_iff] at hnull
        exact hnull.1
      unfold makeAll at h
      dsimp only at h
      split at h
      · cases h
      · split at h
        next hmade =>
          cases h
          exact ih habove hmade
        · split at h
          · cases h
          next hone =>
            cases h
            exact isSystem_of_makeOne hnull hone
          next hone =>
        rw [settle_error h]
        exact isSystem_of_makeOne hnull hone
      next hone =>
        rw [settle_error h]
        exact isSystem_of_makeOne hnull hone

theorem isSystem_of_write {c : Content} (hnull : p.hasNull = false) (h : write t here p c = .error f) :
    f.isSystem = true := by
  rw [write, if_neg (by simp [hnull])] at h
  split at h
  next o _ =>
    cases h
    exact isSystem_failure o p
  · split at h <;> cases h
    rfl

theorem Action.isExpressible_of_apply (h : a.apply here t = (.ok (), t')) : a.IsExpressible := by
  cases a with
  | newFolder p | folder p =>
      have hnull := noNull_of_makeAll h
      rwa [List.reverse_reverse] at hnull
  | file p text =>
      have htext := isText_of_writeText h
      rw [apply, writeText_of_isText htext] at h
      refine ⟨?_, htext⟩
      rw [Bool.eq_false_iff]
      intro hnull
      rw [write, if_pos hnull] at h
      cases h

/-- An action fails of itself, or the system is to blame. -/
theorem Action.isSystem_of_apply (ha : a.IsExpressible) (h : a.apply here t = (.error f, t')) : f.isSystem = true := by
  cases a with
  | newFolder p | folder p =>
      refine isSystem_of_makeAll ?_ h
      rwa [List.reverse_reverse]
  | file p text =>
      obtain ⟨hnull, htext⟩ := ha
      rw [apply, writeText_of_isText htext] at h
      split at h <;> cases h
      next hw => exact isSystem_of_write hnull hw

/-- The action with its text as it is shown, which can be encoded. -/
def Action.asShown : Action → Action
  | .file p text => .file p (.plain text.shown)
  | a => a

theorem write_error_congr {c : Content} (h : write t here p c = .error f) (d : Content) : write t here p d = .error f := by
  unfold write at h ⊢
  split at h
  next hnull =>
    rw [if_pos hnull]
    exact h
  next hnull =>
    rw [if_neg hnull]
    split at h
    · exact h
    · split at h
      · exact h
      · cases h

theorem apply_asShown (h : a.asShown.apply here t = (.ok (), t₁)) : a.apply here t = (.ok (), t₁) ∨
    ∃ start codes t₁, a.apply here t = (.error (.unencodable start codes), t₁) := by
  cases a with
  | newFolder p | folder p => exact .inl h
  | file p text =>
      rw [Action.asShown, Action.apply] at h
      by_cases htext : text.IsText
      · refine .inl ?_
        rw [writeText_of_isText (Spelled.isText_plain text.shown)] at h
        rwa [Action.apply, writeText_of_isText htext]
      · obtain ⟨start, codes, herror⟩ := text.encoded_of_not_isText htext
        have hempty : (text.encoded.toOption.getD "") = "" := by rw [herror]; rfl
        refine .inr ⟨start, codes, ?_⟩
        rw [Action.apply, writeText, hempty, herror]
        cases hw : t.write here p (.text "") with
        | error f =>
            rw [writeText, write_error_congr hw] at h
            cases h
        | ok t₁ => exact ⟨t₁, rfl⟩

/-- If the system would accept all actions with what is shown of their texts, it refuses none of them as they are. -/
theorem isRefused_applyAll (h : (applyAll here t (as.map Action.asShown)).1 = .ok ()) :
    isRefused (applyAll here t as).1 = false := by
  induction as generalizing t with
  | nil => rfl
  | cons a as ih =>
      rw [List.map_cons, applyAll] at h
      split at h
      next t₁ ha =>
        rcases apply_asShown ha with hsame | ⟨start, codes, t₂, hstop⟩
        · rw [applyAll, hsame]
          exact ih h
        · rw [applyAll, hstop]
          rfl
      next => cases h

theorem isExpressible_of_applyAll (h : applyAll here t as = (.ok (), t')) : ∀ a ∈ as, a.IsExpressible := by
  induction as generalizing t with
  | nil => nofun
  | cons a as ih =>
      obtain ⟨t₁, ha, hrest⟩ := applyAll_cons_ok h
      exact List.forall_mem_cons.2 ⟨a.isExpressible_of_apply ha, ih hrest⟩

/-- Actions that cannot all be done come to one that fails, and leave the tree as that one does. -/
theorem applyAll_error (h : applyAll here t as = (.error f, t')) :
    ∃ before a rest t₁, as = before ++ a :: rest ∧ applyAll here t before = (.ok (), t₁) ∧
      a.apply here t₁ = (.error f, t') := by
  induction as generalizing t with
  | nil => cases h
  | cons a as ih =>
      rw [applyAll] at h
      split at h
      next t₁ ha =>
        obtain ⟨before, b, rest, t₂, rfl, hbefore, hb⟩ := ih h
        exact ⟨a :: before, b, rest, t₂, rfl, by rw [applyAll, ha]; exact hbefore, hb⟩
      next ha =>
        cases h
        exact ⟨[], a, as, t, rfl, rfl, ha⟩

end Tree

end ApiScaffold
