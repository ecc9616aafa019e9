namespace ApiScaffold.Keyed

variable {κ α : Type} [DecidableEq κ]

def get? (k : κ) : List (κ × α) → Option α
  | [] => none
  | p :: ps => if p.1 = k then some p.2 else get? k ps

def put (k : κ) (v : α) : List (κ × α) → List (κ × α)
  | [] => [(k, v)]
  | p :: ps => if p.1 = k then (k, v) :: ps else p :: put k v ps

theorem get?_put_self (k : κ) (v : α) (ps : List (κ × α)) : get? k (put k v ps) = some v := by
  induction ps with
  | nil => simp [put, get?]
  | cons p ps ih => by_cases h : p.1 = k <;> simp [put, get?, h, ih]

theorem get?_put_of_ne {k l : κ} (h : l ≠ k) (v : α) (ps : List (κ × α)) :
    get? l (put k v ps) = get? l ps := by
  induction ps with
  | nil => simp [put, get?, h.symm]
  | cons p ps ih =>
    by_cases hk : p.1 = k
    · simp [put, get?, hk, h.symm]
    · simp [put, get?, hk, ih]

/-- Each key once, at its first place and with its last value. -/
def ofPairs (ps : List (κ × α)) : List (κ × α) := ps.foldl (fun t p => put p.1 p.2 t) []

def keys (ps : List (κ × α)) : List κ := ps.map (·.1)

theorem keys_put (k : κ) (v : α) (ps : List (κ × α)) :
    keys (put k v ps) = if k ∈ keys ps then keys ps else keys ps ++ [k] := by
  induction ps with
  | nil => simp [put, keys]
  | cons p ps ih =>
    by_cases h : p.1 = k
    · simp [put, keys, h]
    · have h' : k ≠ p.1 := fun e => h e.symm
      simp only [keys] at ih
      by_cases hm : k ∈ ps.map (·.1) <;> simp [put, keys, h, h', ih, hm]

theorem get?_eq_none_iff (k : κ) (ps : List (κ × α)) : get? k ps = none ↔ k ∉ keys ps := by
  induction ps with
  | nil => simp [get?, keys]
  | cons p ps ih =>
    by_cases h : p.1 = k
    · simp [get?, keys, h]
    · have h' : k ≠ p.1 := fun e => h e.symm
      simp only [keys] at ih
      simp [get?, keys, h, h', ih]

end ApiScaffold.Keyed
