import ApiScaffold.Toolchain.Preflight

namespace ApiScaffold

namespace Run

variable {α β : Type} {here : Location} {tools : Toolchain} {t t₁ : Tree} {a : α}

/-- The run gives a value and leaves a tree, or it fails, whatever has been told and called before. -/
def Ends (here : Location) (tools : Toolchain) (x : Run α) (t : Tree) : Option (α × Tree) → Prop
  | some (a, t') => ∀ say records calls, ∃ records' calls',
      (x.run ⟨t, here, tools, say, records, calls⟩).run = (.ok a, ⟨t', here, tools, say, records', calls'⟩)
  | none => ∀ say records calls, ∃ f w, (x.run ⟨t, here, tools, say, records, calls⟩).run = (.error f, w)

theorem run_bind_of_ok {x : Run α} {f : α → Run β} {w w' : World} (h : (x.run w).run = (.ok a, w')) :
    ((x >>= f).run w).run = ((f a).run w').run := by
  have h' : x w = (.ok a, w') := h
  change (do let r ← x w; ExceptT.bindCont f r.1 r.2 : Id _) = _
  rw [h']
  rfl

theorem run_bind_of_error {x : Run α} {f : α → Run β} {w w' : World} {e : Failure}
    (h : (x.run w).run = (.error e, w')) : ((x >>= f).run w).run = (.error e, w') := by
  have h' : x w = (.error e, w') := h
  change (do let r ← x w; ExceptT.bindCont f r.1 r.2 : Id _) = _
  rw [h']
  rfl

theorem Ends.bind {x : Run α} {f : α → Run β} {o : Option (β × Tree)}
    (hx : Ends here tools x t (some (a, t₁))) (hf : Ends here tools (f a) t₁ o) :
    Ends here tools (x >>= f) t o := by
  cases o with
  | none =>
      intro say rs cs
      obtain ⟨rs₁, cs₁, h₁⟩ := hx say rs cs
      obtain ⟨e, w, h₂⟩ := hf say rs₁ cs₁
      exact ⟨e, w, (run_bind_of_ok h₁).trans h₂⟩
  | some p =>
      intro say rs cs
      obtain ⟨rs₁, cs₁, h₁⟩ := hx say rs cs
      obtain ⟨rs₂, cs₂, h₂⟩ := hf say rs₁ cs₁
      exact ⟨rs₂, cs₂, (run_bind_of_ok h₁).trans h₂⟩

theorem Ends.stop {x : Run α} (hx : Ends here tools x t none) (f : α → Run β) :
    Ends here tools (x >>= f) t none := by
  intro say rs cs
  obtain ⟨e, w, h⟩ := hx say rs cs
  exact ⟨e, w, run_bind_of_error h⟩

theorem Ends.isOk_eq {x : Run α} {o : Option (α × Tree)} (h : Ends here tools x t o)
    (say : String → String → String) (rs : List Record) (cs : List Toolchain.Call) : (x.run ⟨t, here, tools, say, rs, cs⟩).run.1.isOk = o.isSome := by
  cases o with
  | none =>
      obtain ⟨f, w, hw⟩ := h say rs cs
      rw [hw]
      rfl
  | some p =>
      obtain ⟨rs', cs', hw⟩ := h say rs cs
      rw [hw]
      rfl

theorem Ends.tree_eq {x : Run α} (h : Ends here tools x t (some (a, t₁)))
    (say : String → String → String) (rs : List Record) (cs : List Toolchain.Call) : (x.run ⟨t, here, tools, say, rs, cs⟩).run.2.tree = t₁ := by
  obtain ⟨rs', cs', hw⟩ := h say rs cs
  rw [hw]

theorem Ends.pure (a : α) : Ends here tools (pure a) t (some (a, t)) := fun _ rs cs => ⟨rs, cs, rfl⟩

theorem Ends.throw (f : Failure) : Ends here tools (throw f : Run α) t none := fun _ _ _ => ⟨f, _, rfl⟩

theorem Ends.tell (rs : List Record) : Ends here tools (Run.tell rs) t (some ((), t)) :=
  fun _ old cs => ⟨old ++ rs, cs, rfl⟩

theorem Ends.ofExcept (a : α) : Ends here tools (Run.ofExcept (.ok a)) t (some (a, t)) := .pure a

theorem Ends.readWorld {f : World → Run α} {x : Run α} {o : Option (α × Tree)}
    (hf : ∀ w, w.here = here → w.tools = tools → f w = x) (hx : Ends here tools x t o) :
    Ends here tools (get >>= f) t o := by
  have hrun (say : String → String → String) (rs : List Record) (cs : List Toolchain.Call) :
      ((get >>= f).run ⟨t, here, tools, say, rs, cs⟩).run = (x.run ⟨t, here, tools, say, rs, cs⟩).run := by
    rw [← hf ⟨t, here, tools, say, rs, cs⟩ rfl rfl]
    rfl
  cases o with
  | none => exact fun say rs cs => hrun say rs cs ▸ hx say rs cs
  | some p => exact fun say rs cs => hrun say rs cs ▸ hx say rs cs

theorem Ends.at?_ok {p : Path} {n : Option Node} (h : t.look here p = .ok n) :
    Ends here tools (Run.at? p) t (some (n, t)) := by
  intro say rs cs
  refine ⟨rs, cs, ?_⟩
  change ((Run.ofExcept (t.look here p)).run ⟨t, here, tools, say, rs, cs⟩).run = _
  rw [h]
  rfl

theorem Ends.at?_error {p : Path} {f : Failure} (h : t.look here p = .error f) :
    Ends here tools (Run.at? p) t none := by
  intro say rs cs
  refine ⟨f, ⟨t, here, tools, say, rs, cs⟩, ?_⟩
  change ((Run.ofExcept (t.look here p)).run ⟨t, here, tools, say, rs, cs⟩).run = _
  rw [h]
  rfl

theorem Ends.file?_ok (tools : Toolchain) {p : Path} {n : Option Node} (h : t.look here p = .ok n) :
    Ends here tools (Run.file? p) t (some (n.bind Node.content?, t)) := (Ends.at?_ok h).bind (.pure _)

theorem Ends.change_ok {f : Location → Tree → Except Failure Unit × Tree} (h : f here t = (.ok (), t₁)) :
    Ends here tools (Run.change f) t (some ((), t₁)) := by
  intro say rs cs
  refine ⟨rs, cs, ?_⟩
  change ((Run.ofExcept (f here t).1).run ⟨(f here t).2, here, tools, say, rs, cs⟩).run = _
  rw [h]
  rfl

theorem Ends.change_error {f : Location → Tree → Except Failure Unit × Tree} {e : Failure}
    (h : (f here t).1 = .error e) : Ends here tools (Run.change f) t none := by
  intro say rs cs
  refine ⟨e, ⟨(f here t).2, here, tools, say, rs, cs⟩, ?_⟩
  change ((Run.ofExcept (f here t).1).run ⟨(f here t).2, here, tools, say, rs, cs⟩).run = _
  rw [h]
  rfl

theorem run_tryCatch (x : Run α) (handle : Failure → Run α) (w : World) :
    ((tryCatch x handle).run w).run = match (x.run w).run with
      | (.ok a, w') => (.ok a, w')
      | (.error f, w') => ((handle f).run w').run := by
  have hbind {γ : Type} (y : StateM World γ) (k : γ → StateM World (Except Failure α)) :
      ((y >>= k) w).run = (k (y w).run.1 (y w).run.2).run := rfl
  rw [ExceptT.run_tryCatch, hbind]
  rcases (x.run w).run with ⟨r, w'⟩
  cases r <;> rfl

theorem Ends.catch_ok {x : Run α} (hx : Ends here tools x t (some (a, t₁))) (handle : Failure → Run α) :
    Ends here tools (tryCatch x handle) t (some (a, t₁)) := by
  intro say rs cs
  obtain ⟨rs₁, cs₁, h⟩ := hx say rs cs
  exact ⟨rs₁, cs₁, by rw [run_tryCatch, h]⟩

theorem Ends.catch_error {x : Run α} (hx : Ends here tools x t none) {handle : Failure → Run α}
    (hfail : ∀ f w, ∃ f' w', ((handle f).run w).run = (.error f', w')) :
    Ends here tools (tryCatch x handle) t none := by
  intro say rs cs
  obtain ⟨f, w, h⟩ := hx say rs cs
  obtain ⟨f', w', h'⟩ := hfail f w
  exact ⟨f', w', by simp only [run_tryCatch, h, h']⟩

/-- The run neither looks at the tree nor changes it. -/
def Blind (here : Location) (tools : Toolchain) (x : Run α) : Prop :=
  ∃ o : Option α, ∀ t, Ends here tools x t (o.map (·, t))

theorem Blind.bind {x : Run α} {f : α → Run β} (hx : Blind here tools x)
    (hf : ∀ a, Blind here tools (f a)) : Blind here tools (x >>= f) := by
  obtain ⟨o, ho⟩ := hx
  cases o with
  | none => exact ⟨none, fun t => (ho t).stop f⟩
  | some a =>
      obtain ⟨p, hp⟩ := hf a
      exact ⟨p, fun t => (ho t).bind (hp t)⟩

theorem Blind.pure (a : α) : Blind here tools (pure a) := ⟨some a, fun _ => .pure a⟩

theorem Blind.throw (f : Failure) : Blind here tools (throw f : Run α) := ⟨none, fun _ => .throw f⟩

theorem Blind.ofExcept (e : Except Failure α) : Blind here tools (ofExcept e) := by
  cases e with
  | ok a => exact .pure a
  | error f => exact .throw f

theorem Blind.tell (rs : List Record) : Blind here tools (Run.tell rs) := ⟨some (), fun _ => .tell rs⟩

theorem Blind.readTools {f : World → Run α} (hf : ∀ w, w.tools = tools → f w = f (.fresh [] here tools))
    (h : Blind here tools (f (.fresh [] here tools))) : Blind here tools (get >>= f) := by
  obtain ⟨o, ho⟩ := h
  exact ⟨o, fun t => .readWorld (fun w _ hw => hf w hw) (ho t)⟩

theorem Blind.call (c : Toolchain.Call) : Blind here tools (Run.call c) := by
  refine .bind (.tell _) fun _ => .bind ⟨some (), fun t _ rs cs => ⟨rs, cs ++ [c], rfl⟩⟩ fun _ => ?_
  exact Run.Blind.readTools (fun w hw => by simp only [hw]) (.pure _)

end Run

namespace Toolchain

variable {here : Location} {tools : Toolchain}

theorem fails_blind {α : Type} (message tool : String) :
    Run.Blind here tools (fails message tool : Run α) := .throw _

theorem failsFor_ends {α : Type} (least : Int) (message : String → String) (t : Tree) :
    Run.Ends here tools (failsFor least message : Run α) t none := by
  rw [failsFor]
  cases Number.written least with
  | ok version => exact (Run.Ends.ofExcept version).bind (.throw _)
  | error e => exact (Run.Ends.throw e).stop _

theorem checkNode_blind (least : Int) : Run.Blind here tools (checkNode least) := by
  refine Run.Blind.readTools (fun w hw => by simp only [hw]) ?_
  dsimp only
  split
  · exact ⟨none, fun t => (failsFor_ends _ _ t).stop _⟩
  · refine .bind (.call _) fun o => ?_
    cases o with
    | failed e => exact fails_blind _ _
    | finished status output errors =>
        refine .bind (.ofExcept _) fun major => ?_
        cases major with
        | none => exact ⟨none, failsFor_ends _ _⟩
        | some major =>
            dsimp only
            split
            · exact ⟨none, failsFor_ends _ _⟩
            · exact .bind (.tell _) fun _ => .pure _

theorem checkNpm_blind : Run.Blind here tools checkNpm := by
  refine Run.Blind.readTools (fun w hw => by simp only [hw]) ?_
  split
  · exact fails_blind _ _
  · exact .pure _

theorem ensureTypeScript_blind : Run.Blind here tools ensureTypeScript := by
  refine Run.Blind.readTools (fun w hw => by simp only [hw]) ?_
  split
  · exact .pure _
  · refine .bind (.tell _) fun _ => .bind (.call _) fun o => ?_
    cases o with
    | failed e => exact .bind (.tell _) fun _ => .pure _
    | finished status output errors =>
        dsimp only
        split
        · exact .bind (.tell _) fun _ => .pure _
        · exact .pure _

theorem check_blind (here : Location) (tools : Toolchain) (least : Int) : Run.Blind here tools (check least) :=
  (checkNode_blind least).bind fun _ =>
    checkNpm_blind.bind fun _ => ensureTypeScript_blind.bind fun _ => .tell _

theorem installPackages_ends (here : Location) (tools : Toolchain) (root : String) (t : Tree) :
    ∃ b, Run.Ends here tools (installPackages root) t (some (b, t)) := by
  have hcall (c : Call) : ∃ o, Run.Ends here tools (Run.call c) t (some (o, t)) :=
    ⟨tools.run c, fun _ rs cs => ⟨_, cs ++ [c], rfl⟩⟩
  obtain ⟨o, ho⟩ := hcall ⟨["npm", "install"], some root⟩
  cases o with
  | failed e => exact ⟨false, .bind (.tell _) (.bind ho (.bind (.tell _) (.pure _)))⟩
  | finished status output errors =>
      by_cases h : status = 0
      · refine ⟨true, .bind (.tell _) (.bind ho ?_)⟩
        dsimp only
        rw [if_pos h]
        exact .bind (.tell _) (.pure _)
      · refine ⟨false, .bind (.tell _) (.bind ho ?_)⟩
        dsimp only
        rw [if_neg h]
        exact .bind (.tell _) (.bind (.tell _) (.pure _))

end Toolchain

end ApiScaffold
