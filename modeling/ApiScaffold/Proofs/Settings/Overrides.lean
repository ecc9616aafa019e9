import ApiScaffold.Proofs.Run.Calls
import ApiScaffold.Proofs.Settings.Reading
import ApiScaffold.Settings.Load

namespace ApiScaffold.Settings

open Run

def entries (path : Option String) : Run (List (Data × Data)) :=
  match path.filter (· ≠ "") with
  | some p => fileEntries p
  | none => pure []

def overlaid (given : List (Data × Data)) (os : List (String × Data)) : Data :=
  .mapping (given ++ os.map fun o => (.str o.1, o.2))

def loadOver (path : Option String) (overrides : List (String × Data)) (given : List (Data × Data)) :
    Run (Spelled Settings) := do
  let os := effective overrides
  Run.tell (overrideNotes os)
  Run.tell (notes (overlaid given os))
  return spelled (overlaid given os) (← Run.ofExcept (ofData (overlaid given os) (path.filter (· ≠ ""))))

theorem loadSpelled_eq (path : Option String) (overrides : List (String × Data)) :
    loadSpelled path overrides = entries path >>= loadOver path overrides := by
  unfold loadSpelled entries loadOver
  dsimp only
  cases path.filter (· ≠ "") <;> rfl

theorem shown_spelled (d : Data) (s : Settings) : (spelled d s).shown = s := by
  unfold spelled
  split <;> rfl

theorem spelled_congr {d e : Data} (h : d.entry? Key.apiPrefix.text = e.entry? Key.apiPrefix.text) :
    spelled d = spelled e := by
  unfold spelled
  rw [h]

def isOver (os : List (String × Data)) : Data → Bool
  | .str k => os.any fun o => o.1 = k
  | _ => false

def without (os : List (String × Data)) (given : List (Data × Data)) : List (Data × Data) :=
  given.filter fun e => !isOver os e.1

variable {given : List (Data × Data)} {os : List (String × Data)} {key : String}

theorem entry?_overlaid (given : List (Data × Data)) (os : List (String × Data)) (key : String) :
    Data.entry? key (overlaid given os) =
      os.foldl (fun found o => if o.1 = key then some o.2 else found) (Data.entry? key (.mapping given)) := by
  rw [overlaid, Data.entry?, List.foldl_append, List.foldl_map]
  rfl

theorem foldl_override_congr (h : ∃ o ∈ os, o.1 = key) (a b : Option Data) :
    os.foldl (fun found o => if o.1 = key then some o.2 else found) a =
      os.foldl (fun found o => if o.1 = key then some o.2 else found) b := by
  induction os generalizing a b with
  | nil => obtain ⟨o, ho, -⟩ := h; cases ho
  | cons o os ih =>
      rw [List.foldl_cons, List.foldl_cons]
      by_cases hkey : o.1 = key
      · rw [if_pos hkey, if_pos hkey]
      · obtain ⟨p, hp, hpkey⟩ := h
        obtain rfl | hp := List.mem_cons.1 hp
        · exact absurd hpkey hkey
        · exact ih ⟨p, hp, hpkey⟩ _ _

theorem entry?_without (h : ∀ o ∈ os, o.1 ≠ key) (given : List (Data × Data)) :
    Data.entry? key (.mapping (without os given)) = Data.entry? key (.mapping given) := by
  rw [Data.entry?, Data.entry?, without, List.foldl_filter]
  congr 1
  funext found e
  split
  · rfl
  next hover =>
    rw [Bool.not_eq_true', Bool.not_eq_false] at hover
    obtain ⟨k, v⟩ := e
    cases k with
    | str k =>
        obtain ⟨o, ho, hok⟩ := List.any_eq_true.1 hover
        exact (if_neg fun hkey => h o ho ((of_decide_eq_true hok).trans hkey)).symm
    | _ => cases hover

theorem entry?_overlaid_without (given : List (Data × Data)) (os : List (String × Data)) (key : String) :
    Data.entry? key (overlaid (without os given) os) = Data.entry? key (overlaid given os) := by
  rw [entry?_overlaid, entry?_overlaid]
  by_cases h : ∃ o ∈ os, o.1 = key
  · exact foldl_override_congr h _ _
  · rw [entry?_without fun o ho hkey => h ⟨o, ho, hkey⟩]

/-- The file may say what it likes for the keys of the overrides, or nothing. -/
theorem loadOver_without (path : Option String) (overrides : List (String × Data)) (given : List (Data × Data)) :
    loadOver path overrides (without (effective overrides) given) = loadOver path overrides given := by
  have hentry (k : Key) := entry?_overlaid_without given (effective overrides) k.text
  have hread : ofData? (overlaid (without (effective overrides) given) (effective overrides)) =
      ofData? (overlaid given (effective overrides)) := readMapping_congr hentry
  unfold loadOver
  simp only [notes, fieldNotes, ofData, hentry, hread, spelled_congr (hentry .apiPrefix)]

theorem isGiven_of_yields_loadOver {path : Option String} {overrides : List (String × Data)} {s : Spelled Settings}
    (h : Yields (loadOver path overrides given) s) : IsGiven (overlaid given (effective overrides)) s.shown := by
  obtain ⟨_, -, h⟩ := h.of_bind
  obtain ⟨_, -, h⟩ := h.of_bind
  obtain ⟨s₁, hs₁, w, w', ⟨⟩⟩ := h.of_bind
  rw [shown_spelled]
  exact isGiven_of_ofData hs₁.of_ofExcept

theorem starts_entries {P : Toolchain.Call → Prop} (path : Option String) : Starts P (entries path) := by
  rw [entries]
  split
  next p _ =>
    refine .bind (.file? _) fun c => ?_
    cases c with
    | none => exact .bind (.tell _) fun _ => .pure _
    | some c =>
        refine .bind (.ofExcept _) fun _ => .bind .get fun _ => .bind (.ofExcept _) fun _ => .bind (.ofExcept _) fun _ => ?_
        dsimp only
        exact .guarded (fun _ => .tell _) fun _ => .pure _
  · exact .pure _

theorem starts_loadOver {P : Toolchain.Call → Prop} (path : Option String) (overrides : List (String × Data))
    (given : List (Data × Data)) : Starts P (loadOver path overrides given) :=
  .bind (.tell _) fun _ => .bind (.tell _) fun _ => .bind (.ofExcept _) fun _ => .pure _

end ApiScaffold.Settings
