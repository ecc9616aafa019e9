import ApiScaffold.Proofs.Run.Quiet

namespace ApiScaffold

namespace Run

variable {α β : Type} {x : Run α} {f : α → Run β} {P Q : Toolchain.Call → Prop}

def Yields (x : Run α) (a : α) : Prop := ∃ w w', (x.run w).run = (.ok a, w')

theorem Yields.of_bind {b : β} (h : Yields (x >>= f) b) : ∃ a, Yields x a ∧ Yields (f a) b := by
  obtain ⟨w, w', h⟩ := h
  obtain ⟨a, w₁, hx, hf⟩ := bind_eq_ok h
  exact ⟨a, ⟨w, w₁, hx⟩, w₁, w', hf⟩

theorem Yields.of_ofExcept {r : Except Failure α} {a : α} (h : Yields (Run.ofExcept r) a) : r = .ok a := by
  obtain ⟨w, w', h⟩ := h
  cases r with
  | ok b => cases h; rfl
  | error e => cases h

def Starts (P : Toolchain.Call → Prop) (x : Run α) : Prop :=
  ∀ w : World, ∃ started, (x.run w).run.2.calls = w.calls ++ started ∧ ∀ c ∈ started, P c

namespace Starts

theorem mono (h : Starts P x) (hPQ : ∀ c, P c → Q c) : Starts Q x := by
  intro w
  obtain ⟨cs, hcs, hP⟩ := h w
  exact ⟨cs, hcs, fun c hc => hPQ c (hP c hc)⟩

theorem of_calls (h : ∀ w, (x.run w).run.2.calls = w.calls) : Starts P x :=
  fun w => ⟨[], (h w).trans (List.append_nil _).symm, nofun⟩

theorem bind_of_yields (hx : Starts P x) (hf : ∀ a, Yields x a → Starts P (f a)) : Starts P (x >>= f) := by
  intro w
  obtain ⟨cs, hcs, hP⟩ := hx w
  rcases h : (x.run w).run with ⟨r, w₁⟩
  rw [h] at hcs
  cases r with
  | ok a =>
      obtain ⟨ds, hds, hQ⟩ := hf a ⟨w, w₁, h⟩ w₁
      refine ⟨cs ++ ds, ?_, fun c hc => (List.mem_append.1 hc).elim (hP c) (hQ c)⟩
      rw [run_bind_of_ok h, hds, hcs, List.append_assoc]
  | error e =>
      refine ⟨cs, ?_, hP⟩
      rw [run_bind_of_error h, hcs]

theorem bind (hx : Starts P x) (hf : ∀ a, Starts P (f a)) : Starts P (x >>= f) :=
  hx.bind_of_yields fun a _ => hf a

theorem pure (a : α) : Starts P (pure a) := .of_calls fun _ => rfl

theorem throw (e : Failure) : Starts P (throw e : Run α) := .of_calls fun _ => rfl

theorem get : Starts P (get : Run World) := .of_calls fun _ => rfl

theorem tell (rs : List Record) : Starts P (Run.tell rs) := .of_calls fun _ => rfl

theorem ofExcept (r : Except Failure α) : Starts P (Run.ofExcept r) := by
  cases r with
  | ok a => exact pure a
  | error e => exact throw e

theorem call {c : Toolchain.Call} (h : P c) : Starts P (Run.call c) := by
  refine (tell _).bind fun _ => bind (fun w => ⟨[c], rfl, ?_⟩) fun _ => get.bind fun _ => pure _
  rintro _ (_ | _)
  · exact h
  · contradiction

theorem at? (p : Path) : Starts P (Run.at? p) := get.bind fun _ => get.bind fun _ => ofExcept _

theorem file? (p : Path) : Starts P (Run.file? p) := (at? p).bind fun _ => pure _

theorem change (act : Location → Tree → Except Failure Unit × Tree) : Starts P (Run.change act) :=
  fun w => ofExcept (act w.here w.tree).1 { w with tree := (act w.here w.tree).2 }

theorem tryCatch {handle : Failure → Run α} (hx : Starts P x) (hhandle : ∀ e, Starts P (handle e)) :
    Starts P (tryCatch x handle) := by
  intro w
  obtain ⟨cs, hcs, hP⟩ := hx w
  rw [run_tryCatch]
  rcases h : (x.run w).run with ⟨r, w₁⟩
  rw [h] at hcs
  cases r with
  | ok a => exact ⟨cs, hcs, hP⟩
  | error e =>
      obtain ⟨ds, hds, hQ⟩ := hhandle e w₁
      refine ⟨cs ++ ds, ?_, fun c hc => (List.mem_append.1 hc).elim (hP c) (hQ c)⟩
      rw [hds, hcs, List.append_assoc]

theorem mapM {as : List α} (hf : ∀ a, Starts P (f a)) : Starts P (as.mapM f) := by
  induction as with
  | nil => exact pure []
  | cons a as ih =>
      rw [List.mapM_cons]
      exact (hf a).bind fun _ => ih.bind fun _ => pure _

theorem forM {as : List α} {g : α → Run PUnit} (hg : ∀ a, Starts P (g a)) : Starts P (as.forM g) := by
  induction as with
  | nil => exact pure _
  | cons a as ih => exact (hg a).bind fun _ => ih

theorem forIn {as : List α} {g : α → β → Run (ForInStep β)} (hg : ∀ a b, Starts P (g a b)) (b : β) :
    Starts P (forIn as b g) := by
  induction as generalizing b with
  | nil => exact pure b
  | cons a as ih =>
      rw [List.forIn_cons]
      refine (hg a b).bind fun step => ?_
      cases step with
      | done b => exact pure b
      | yield b => exact ih b

theorem guarded {c : Prop} [Decidable c] {x : Run Unit} {y : Unit → Run α} (hx : c → Starts P x)
    (hy : ∀ u, Starts P (y u)) : Starts P (if c then x >>= y else y ()) := by
  split
  next hc => exact (hx hc).bind hy
  · exact hy ()

end Starts

end Run

end ApiScaffold
