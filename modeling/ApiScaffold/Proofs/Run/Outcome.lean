import ApiScaffold.Proofs.Run

namespace ApiScaffold

namespace Run

variable {α β : Type} {T : Toolchain → Prop} {x : Run α} {f : α → Run β} {a : α} {e : Failure} {r : Except Failure β}
  {cs ds : List Toolchain.Call}

theorem run_call (c : Toolchain.Call) (w : World) : ∃ records, ((Run.call c).run w).run =
    (.ok (w.tools.run c), { w with records := records, calls := w.calls ++ [c] }) := ⟨_, rfl⟩

/-- With every toolchain of the kind, the run ends as said, and it starts the commands in their order. -/
def Does (T : Toolchain → Prop) (x : Run α) (r : Except Failure α) (started : List Toolchain.Call) : Prop :=
  ∀ w : World, T w.tools → ∃ w', (x.run w).run = (r, w') ∧ w'.tools = w.tools ∧ w'.calls = w.calls ++ started

namespace Does

theorem bind (hx : Does T x (.ok a) cs) (hf : Does T (f a) r ds) : Does T (x >>= f) r (cs ++ ds) := by
  intro w hw
  obtain ⟨w₁, hrun, htools, hcalls⟩ := hx w hw
  obtain ⟨w', hrun', htools', hcalls'⟩ := hf w₁ (htools ▸ hw)
  refine ⟨w', (run_bind_of_ok hrun).trans hrun', htools'.trans htools, ?_⟩
  rw [hcalls', hcalls, List.append_assoc]

theorem bind_nil (hx : Does T x (.ok a) []) (hf : Does T (f a) r cs) : Does T (x >>= f) r cs := hx.bind hf

theorem stop (hx : Does T x (.error e) cs) (f : α → Run β) : Does T (x >>= f) (.error e) cs := by
  intro w hw
  obtain ⟨w', hrun, h⟩ := hx w hw
  exact ⟨w', run_bind_of_error hrun, h⟩

theorem pure (a : α) : Does T (pure a) (.ok a) [] := fun w _ => ⟨w, rfl, rfl, (List.append_nil _).symm⟩

theorem throw (e : Failure) : Does T (throw e : Run α) (.error e) [] :=
  fun w _ => ⟨w, rfl, rfl, (List.append_nil _).symm⟩

theorem tell (rs : List Record) : Does T (Run.tell rs) (.ok ()) [] :=
  fun _ _ => ⟨_, rfl, rfl, (List.append_nil _).symm⟩

theorem ofExcept (q : Except Failure α) : Does T (Run.ofExcept q) q [] := by
  cases q with
  | ok a => exact pure a
  | error e => exact throw e

theorem read {g : World → Run β} (hg : ∀ w, T w.tools → Does T (g w) r cs) : Does T (get >>= g) r cs :=
  fun w hw => hg w hw w hw

theorem call {c : Toolchain.Call} {o : Toolchain.Outcome} (ho : ∀ t, T t → t.run c = o) :
    Does T (Run.call c) (.ok o) [c] := by
  intro w hw
  obtain ⟨records, hcall⟩ := run_call c w
  rw [ho w.tools hw] at hcall
  exact ⟨_, hcall, rfl, rfl⟩

theorem call_then {c : Toolchain.Call} {o : Toolchain.Outcome} {g : Toolchain.Outcome → Run β}
    (ho : ∀ t, T t → t.run c = o) (hg : Does T (g o) r cs) : Does T (Run.call c >>= g) r (c :: cs) := (call ho).bind hg

theorem call_bind {c : Toolchain.Call} {g : Toolchain.Outcome → Run β} (hg : ∀ o, Does T (g o) r cs) :
    Does T (Run.call c >>= g) r (c :: cs) := by
  intro w hw
  obtain ⟨records, hcall⟩ := run_call c w
  obtain ⟨w', hrun, htools, hcalls⟩ := hg (w.tools.run c) { w with records := records, calls := w.calls ++ [c] } hw
  refine ⟨w', (run_bind_of_ok hcall).trans hrun, htools, ?_⟩
  rw [hcalls, List.append_assoc]
  rfl

end Does

end Run

end ApiScaffold
