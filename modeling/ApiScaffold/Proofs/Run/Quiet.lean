import ApiScaffold.Proofs.Run
import ApiScaffold.Proofs.Tree.Action

namespace ApiScaffold

/-- At most what has been told and called is another. -/
structure World.Stays (w w' : World) : Prop where
  tree : w'.tree = w.tree
  here : w'.here = w.here
  tools : w'.tools = w.tools

theorem World.Stays.refl (w : World) : w.Stays w := ⟨rfl, rfl, rfl⟩

theorem World.Stays.trans {w w₁ w' : World} (h : w.Stays w₁) (h' : w₁.Stays w') : w.Stays w' :=
  ⟨h'.tree.trans h.tree, h'.here.trans h.here, h'.tools.trans h.tools⟩

theorem World.Stays.withTree {w w' : World} (h : w.Stays w') (t : Tree) :
    World.Stays { w with tree := t } { w' with tree := t } := ⟨rfl, h.here, h.tools⟩

namespace Run

variable {α β : Type} {x : Run α} {f : α → Run β} {w w' : World} {b : β} {e : Failure}

theorem bind_eq_ok (h : ((x >>= f).run w).run = (.ok b, w')) :
    ∃ a w₁, (x.run w).run = (.ok a, w₁) ∧ ((f a).run w₁).run = (.ok b, w') := by
  rcases hx : (x.run w).run with ⟨r, w₁⟩
  cases r with
  | ok a => exact ⟨a, w₁, rfl, (run_bind_of_ok hx).symm.trans h⟩
  | error e =>
      rw [run_bind_of_error hx] at h
      cases h

/-- The run leaves the tree as it is, whether it fails or not. -/
def Quiet (x : Run α) : Prop := ∀ w : World, w.Stays (x.run w).run.2

namespace Quiet

theorem bind (hx : Quiet x) (hf : ∀ a, Quiet (f a)) : Quiet (x >>= f) := by
  intro w
  have hw := hx w
  rcases h : (x.run w).run with ⟨r, w₁⟩
  rw [h] at hw
  cases r with
  | ok a =>
      rw [run_bind_of_ok h]
      exact hw.trans (hf a w₁)
  | error e =>
      rw [run_bind_of_error h]
      exact hw

theorem pure (a : α) : Quiet (pure a) := fun w => .refl w

theorem throw (f : Failure) : Quiet (throw f : Run α) := fun w => .refl w

theorem get : Quiet (get : Run World) := fun w => .refl w

theorem tell (rs : List Record) : Quiet (Run.tell rs) := fun _ => ⟨rfl, rfl, rfl⟩

theorem ofExcept (r : Except Failure α) : Quiet (Run.ofExcept r) := by
  cases r with
  | ok a => exact pure a
  | error f => exact throw f

theorem call (c : Toolchain.Call) : Quiet (Run.call c) :=
  (tell _).bind fun _ => .bind (fun _ => ⟨rfl, rfl, rfl⟩) fun _ => get.bind fun _ => pure _

theorem at? (p : Path) : Quiet (Run.at? p) := get.bind fun _ => get.bind fun _ => ofExcept _

theorem file? (p : Path) : Quiet (Run.file? p) := (at? p).bind fun _ => pure _

theorem mapM {as : List α} {f : α → Run β} (hf : ∀ a, Quiet (f a)) : Quiet (as.mapM f) := by
  induction as with
  | nil => exact pure []
  | cons a as ih =>
      rw [List.mapM_cons]
      exact (hf a).bind fun _ => ih.bind fun _ => pure _

theorem bind_eq_ok (hx : Quiet x) (h : ((x >>= f).run w).run = (.ok b, w')) :
    ∃ a w₁, w.Stays w₁ ∧ (x.run w).run = (.ok a, w₁) ∧ ((f a).run w₁).run = (.ok b, w') := by
  obtain ⟨a, w₁, ha, hf⟩ := Run.bind_eq_ok h
  have hstays := hx w
  rw [ha] at hstays
  exact ⟨a, w₁, hstays, ha, hf⟩

theorem guarded {c : Prop} [Decidable c] {x : Run Unit} {y : Unit → Run α} (hx : Quiet x)
    (hy : ∀ u, Quiet (y u)) : Quiet (if c then x >>= y else y ()) := by
  split
  · exact hx.bind hy
  · exact hy ()

end Quiet

/-- The run makes the actions, and otherwise leaves the tree as it is. It ends well, with a value as said, when
they do, and fails when one of them fails. -/
structure Makes (as : List Tree.Action) (x : Run α) (P : α → Prop) : Prop where
  ok : ∀ {w t}, Tree.applyAll w.here w.tree as = (.ok (), t) →
    ∃ a w', (x.run w).run = (.ok a, w') ∧ P a ∧ World.Stays { w with tree := t } w'
  error : ∀ {w t e}, Tree.applyAll w.here w.tree as = (.error e, t) →
    ∃ e w', (x.run w).run = (.error e, w') ∧ World.Stays { w with tree := t } w'

namespace Makes

variable {P : α → Prop} {Q : β → Prop} {as bs : List Tree.Action}

theorem bind (hx : Makes as x P) (hf : ∀ a, P a → Makes bs (f a) Q) : Makes (as ++ bs) (x >>= f) Q := by
  have hstep {w w₁ : World} {t : Tree} (h : World.Stays { w with tree := t } w₁) :
      Tree.applyAll w₁.here w₁.tree bs = Tree.applyAll w.here t bs := by rw [h.here, h.tree]
  constructor
  · intro w t ht
    rw [Tree.applyAll_append] at ht
    split at ht
    next t₁ has =>
      obtain ⟨a, w₁, hxa, ha, hw₁⟩ := hx.ok has
      obtain ⟨b, w', hfb, hb, hw'⟩ := (hf a ha).ok ((hstep hw₁).trans ht)
      exact ⟨b, w', (run_bind_of_ok hxa).trans hfb, hb, (hw₁.withTree t).trans hw'⟩
    next => cases ht
  · intro w t e ht
    rw [Tree.applyAll_append] at ht
    split at ht
    next t₁ has =>
      obtain ⟨a, w₁, hxa, ha, hw₁⟩ := hx.ok has
      obtain ⟨e, w', hfe, hw'⟩ := (hf a ha).error ((hstep hw₁).trans ht)
      exact ⟨e, w', (run_bind_of_ok hxa).trans hfe, (hw₁.withTree t).trans hw'⟩
    next e has =>
      cases ht
      obtain ⟨e, w₁, hxe, hw₁⟩ := hx.error has
      exact ⟨e, w₁, run_bind_of_error hxe, hw₁⟩

theorem finish (hx : Makes as x P) (hf : ∀ a, P a → Makes [] (f a) Q) : Makes as (x >>= f) Q := by
  have h := hx.bind hf
  rwa [List.append_nil] at h

theorem of_quiet (hx : Quiet x) (h : ∀ w, ∃ a w', (x.run w).run = (.ok a, w') ∧ P a) : Makes [] x P := by
  constructor
  · rintro w t ⟨⟩
    obtain ⟨a, w', hrun, ha⟩ := h w
    have hw := hx w
    rw [hrun] at hw
    exact ⟨a, w', hrun, ha, hw⟩
  · rintro w t e ⟨⟩

theorem pure {a : α} (h : P a) : Makes [] (Pure.pure a) P := .of_quiet (.pure a) fun w => ⟨a, w, rfl, h⟩

theorem tell (rs : List Record) : Makes [] (Run.tell rs) fun _ => True :=
  .of_quiet (.tell rs) fun _ => ⟨(), _, rfl, trivial⟩

theorem change {a : Tree.Action} {f : Location → Tree → Except Failure Unit × Tree}
    (h : ∀ here t, f here t = a.apply here t) : Makes [a] (Run.change f) fun _ => True := by
  have hrun (w : World) : ((Run.change f).run w).run =
      ((Run.ofExcept (f w.here w.tree).1).run { w with tree := (f w.here w.tree).2 }).run := rfl
  have hone (here : Location) (t : Tree) : Tree.applyAll here t [a] = a.apply here t := by
    rw [Tree.applyAll]
    rcases a.apply here t with ⟨r, t'⟩
    cases r <;> rfl
  constructor
  · intro w t ht
    rw [hone, ← h] at ht
    refine ⟨(), { w with tree := t }, ?_, trivial, .refl _⟩
    rw [hrun, ht]
    rfl
  · intro w t e ht
    rw [hone, ← h] at ht
    refine ⟨e, { w with tree := t }, ?_, .refl _⟩
    rw [hrun, ht]
    rfl

theorem newFolder (p : Path) : Makes [.newFolder p] (Run.makeDirectories false p) fun _ => True :=
  .change fun _ _ => rfl

theorem folder (p : Path) : Makes [.folder p] (Run.makeDirectories true p) fun _ => True :=
  .change fun _ _ => rfl

theorem file (p : Path) (text : Spelled String) : Makes [.file p text] (Run.write p text) fun _ => True :=
  .change fun _ _ => rfl

theorem catch_error (hx : Makes as x P) {handle : Failure → Run α} (hquiet : ∀ f, Quiet (handle f))
    (hfail : ∀ f w, ∃ f' w', ((handle f).run w).run = (.error f', w')) : Makes as (tryCatch x handle) P := by
  constructor
  · intro w t ht
    obtain ⟨a, w', hrun, ha, hw⟩ := hx.ok ht
    exact ⟨a, w', by rw [run_tryCatch, hrun], ha, hw⟩
  · intro w t e ht
    obtain ⟨e, w₁, hrun, hw₁⟩ := hx.error ht
    obtain ⟨f, w', hhandle⟩ := hfail e w₁
    have hw' := hquiet e w₁
    rw [hhandle] at hw'
    exact ⟨f, w', by simp only [run_tryCatch, hrun, hhandle], hw₁.trans hw'⟩

theorem forM {γ : Type} {cs : List γ} {g : γ → Run PUnit} {acts : γ → List Tree.Action}
    (hg : ∀ c, Makes (acts c) (g c) fun _ => True) : Makes (cs.flatMap acts) (cs.forM g) fun _ => True := by
  induction cs with
  | nil => exact .pure trivial
  | cons c cs ih => exact (hg c).bind fun _ _ => ih

theorem mapM {γ : Type} {cs : List γ} {g : γ → Run α} {acts : γ → List Tree.Action}
    (hg : ∀ c, Makes (acts c) (g c) fun _ => True) : Makes (cs.flatMap acts) (cs.mapM g) fun _ => True := by
  induction cs with
  | nil => exact .pure trivial
  | cons c cs ih =>
      rw [List.mapM_cons]
      exact (hg c).bind fun _ _ => ih.finish fun _ _ => .pure trivial

end Makes

end Run

end ApiScaffold
