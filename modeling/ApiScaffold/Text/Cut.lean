import ApiScaffold.Text.Character

namespace ApiScaffold.Text

/-- The part before the first `sep`, and what follows it when there is one. -/
def cut (sep : Char) : List Char → List Char × Option (List Char)
  | [] => ([], none)
  | c :: cs =>
    if c = sep then ([], some cs)
    else
      let r := cut sep cs
      (c :: r.1, r.2)

theorem cut_of_not_mem {sep : Char} {xs : List Char} (h : sep ∉ xs) : cut sep xs = (xs, none) := by
  induction xs with
  | nil => rfl
  | cons x xs ih =>
    obtain ⟨hx, hxs⟩ := not_or.1 (fun m => h (List.mem_cons.2 m))
    simp [cut, Ne.symm hx, ih hxs]

theorem cut_append {sep : Char} {xs : List Char} (h : sep ∉ xs) (ys : List Char) :
    cut sep (xs ++ sep :: ys) = (xs, some ys) := by
  induction xs with
  | nil => simp [cut]
  | cons x xs ih =>
    obtain ⟨hx, hxs⟩ := not_or.1 (fun m => h (List.mem_cons.2 m))
    simp [cut, Ne.symm hx, ih hxs]

def stripLead? : List Char → List Char → Option (List Char)
  | [], cs => some cs
  | _ :: _, [] => none
  | p :: ps, c :: cs => if p = c then stripLead? ps cs else none

theorem stripLead?_append (ps cs : List Char) : stripLead? ps (ps ++ cs) = some cs := by
  induction ps with
  | nil => rfl
  | cons p ps ih => simp [stripLead?, ih]

theorem eq_append_of_stripLead? {ps cs r : List Char} (h : stripLead? ps cs = some r) :
    cs = ps ++ r := by
  induction ps generalizing cs with
  | nil => simpa [stripLead?] using h
  | cons p ps ih =>
    cases cs with
    | nil => simp [stripLead?] at h
    | cons c cs =>
      by_cases hp : p = c
      · simp only [stripLead?, hp, if_true] at h
        rw [hp, List.cons_append, ih h]
      · simp [stripLead?, hp] at h

def nextLine? (cs : List Char) : Option (List Char) := (cut '\n' cs).2

theorem cut_snd_length {sep : Char} {cs r : List Char} (h : (cut sep cs).2 = some r) :
    r.length < cs.length := by
  induction cs with
  | nil => simp [cut] at h
  | cons c cs ih =>
    by_cases hc : c = sep
    · simp [cut, hc] at h; simp [h]
    · simp [cut, hc] at h; have := ih h; simp; omega

theorem nextLine?_length {cs r : List Char} (h : nextLine? cs = some r) : r.length < cs.length :=
  cut_snd_length h

def lineIsBlank (cs : List Char) : Bool := (cs.takeWhile (· != '\n')).all isBlank

variable {α : Type}

/-- What `f` finds at the beginnings of lines, going on with the line after what it has read. -/
def scan (f : List Char → Option (α × List Char)) (cs : List Char) : List α :=
  match f cs with
  | some (a, r) =>
    match nextLine? r with
    | some r => if r.length < cs.length then a :: scan f r else [a]
    | none => [a]
  | none =>
    match _h : nextLine? cs with
    | some r => scan f r
    | none => []
termination_by cs.length
decreasing_by
  · assumption
  · exact nextLine?_length ‹_›

end ApiScaffold.Text
