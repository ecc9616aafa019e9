import ApiScaffold.Generation
import ApiScaffold.Proofs.Run
import ApiScaffold.Proofs.Tree.Action
import ApiScaffold.Proofs.Tree.Lay

namespace ApiScaffold

namespace Step

def ofFolder (p : String) : Step := .folder (Path.ofText p).parts

def ofDocument (d : Document) : Step := .file (Path.ofText d.path).parts d.content

end Step

namespace Run

variable {α β : Type} {here : Location} {tools : Toolchain} {t : Tree} {a : α}

theorem Ends.andThen {x : Run α} {f : α → Run β} {o : Option Tree} {g : Tree → Option (β × Tree)}
    (hx : Ends here tools x t (o.map (a, ·))) (hf : ∀ t', o = some t' → Ends here tools (f a) t' (g t')) :
    Ends here tools (x >>= f) t (o.bind g) := by
  cases o with
  | none => exact hx.stop f
  | some t' => exact hx.bind (hf t' rfl)

theorem Ends.finish {x : Run α} {f : α → Run β} {o : Option Tree} {b : β}
    (hx : Ends here tools x t (o.map (a, ·))) (hf : ∀ t', Ends here tools (f a) t' (some (b, t'))) :
    Ends here tools (x >>= f) t (o.map (b, ·)) := by
  cases o with
  | none => exact hx.stop f
  | some t' => exact hx.bind (hf t')

end Run

namespace Generation

open Run ApiScaffold.Tree

variable {here : Location} {tools : Toolchain} {t : Tree} {root : Path}

theorem makeDirectories_ends (q : List String) :
    Ends here tools (Run.makeDirectories true (root.below q)) t
      ((made (makeBelow here root q t)).map ((), ·)) := by
  rcases hm : makeBelow here root q t with ⟨r, t'⟩
  cases r with
  | ok u => exact Ends.change_ok hm
  | error f =>
      have herror : (Tree.makeDirectories true here (root.below q) t).1 = .error f := congrArg Prod.fst hm
      exact Ends.change_error herror

theorem write_ends (p : Path) {c : Spelled String} (hc : c.IsText) :
    Ends here tools (Run.write p c) t ((t.write here p (.text c.shown)).toOption.map ((), ·)) := by
  cases hw : t.write here p (.text c.shown) with
  | ok t' => exact Ends.change_ok (by rw [writeText_of_isText hc, hw])
  | error f => exact Ends.change_error (e := f) (by rw [writeText_of_isText hc, hw])

theorem lay_cons (t : Tree) (s : Step) (ss : List Step) :
    lay here root t (s :: ss) = (act here root t s).bind fun t => lay here root t ss := List.foldlM_cons

theorem div_eq (root : Path) {p : String} (h : (Path.ofText p).absolute = false) :
    root / p = root.below (Path.ofText p).parts := Path.div_eq_below root (by rw [← h])

theorem makeFolders_ends {ds : List String} (hds : ∀ d ∈ ds, (Path.ofText d).absolute = false) :
    Ends here tools (makeFolders root ds) t ((lay here root t (ds.map Step.ofFolder)).map ((), ·)) := by
  induction ds generalizing t with
  | nil => exact .pure ()
  | cons d ds ih =>
      have hrec : makeFolders root (d :: ds) =
          (Run.makeDirectories true (root / d) >>= fun _ => makeFolders root ds) := rfl
      rw [hrec, div_eq root (hds d (by simp)), List.map_cons, lay_cons, Option.map_bind]
      exact (makeDirectories_ends _).andThen fun t' _ => ih fun e he => hds e (by simp [he])

theorem writeDocument_ends {d : Draft} (hd : (Path.ofText d.path).absolute = false)
    (hne : (Path.ofText d.path).parts ≠ []) (htext : d.content.IsText) :
    Ends here tools (writeDocument root d) t ((act here root t (.ofDocument d.shown)).map (root / d.path, ·)) := by
  have hwrite : Ends here tools (do
      Run.makeDirectories true (root / d.path).parent
      Run.write (root / d.path) d.content) t ((act here root t (.ofDocument d.shown)).map ((), ·)) := by
    rw [div_eq root hd, Path.parent_below root hne, Step.ofDocument, act, Option.map_bind]
    exact (makeDirectories_ends _).andThen fun t' _ => write_ends _ htext
  cases hact : act here root t (.ofDocument d.shown) with
  | none =>
      rw [hact] at hwrite
      refine (hwrite.catch_error fun f w => ?_).stop _
      by_cases hf : f.isSystem
      · exact ⟨_, _, by simp [hf]; rfl⟩
      · exact ⟨f, w, by simp [hf]; rfl⟩
  | some t' =>
      rw [hact] at hwrite
      exact (hwrite.catch_ok _).bind (.bind (.tell _) (.pure _))

theorem writeDocuments_ends {ds : List Draft} (hds : ∀ d ∈ ds, (Path.ofText d.path).absolute = false)
    (hne : ∀ d ∈ ds, (Path.ofText d.path).parts ≠ []) (htext : ∀ d ∈ ds, d.content.IsText) :
    Ends here tools (writeDocuments root ds) t
      ((lay here root t ((ds.map Draft.shown).map Step.ofDocument)).map (ds.map fun d => root / d.path, ·)) := by
  induction ds generalizing t with
  | nil => exact .pure []
  | cons d ds ih =>
      have hrec : writeDocuments root (d :: ds) = (do
          let p ← writeDocument root d
          let ps ← writeDocuments root ds
          return p :: ps) := List.mapM_cons
      rw [hrec, List.map_cons (f := Draft.shown), List.map_cons (f := Step.ofDocument), lay_cons, Option.map_bind]
      have hfirst : Ends here tools (writeDocument root d) t
          ((act here root t (.ofDocument d.shown)).map (root / d.path, ·)) :=
        writeDocument_ends (hds d List.mem_cons_self) (hne d List.mem_cons_self) (htext d List.mem_cons_self)
      refine hfirst.andThen fun t' _ => ?_
      exact (ih (fun e he => hds e (List.mem_cons_of_mem d he)) (fun e he => hne e (List.mem_cons_of_mem d he))
        fun e he => htext e (List.mem_cons_of_mem d he)).finish fun _ => .pure _

theorem putDown_ends {ds : List Draft} (hds : ∀ d ∈ ds, (Path.ofText d.path).absolute = false)
    (hne : ∀ d ∈ ds, (Path.ofText d.path).parts ≠ []) (htext : ∀ d ∈ ds, d.content.IsText) :
    Ends here tools (putDown root ds) t ((lay here root t ((ds.map Draft.shown).map Step.ofDocument)).map ((), ·)) :=
  (writeDocuments_ends hds hne htext).finish fun _ => .tell _

end Generation

end ApiScaffold
