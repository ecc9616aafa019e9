import ApiScaffold.Text.Cut
import ApiScaffold.TypeScript.Module
import Mathlib.Data.List.TakeDrop

namespace ApiScaffold.Text

def unlines (ls : List (List Char)) : List Char := ls.flatMap (· ++ ['\n'])

@[simp] theorem unlines_nil : unlines [] = [] := rfl

@[simp] theorem unlines_cons (l : List Char) (ls : List (List Char)) :
    unlines (l :: ls) = l ++ '\n' :: unlines ls := by
  simp [unlines]

@[simp] theorem unlines_append (ls ms : List (List Char)) :
    unlines (ls ++ ms) = unlines ls ++ unlines ms := List.flatMap_append

theorem toList_linesText (ls : List String) : (linesText ls).toList = unlines (ls.map String.toList) := by
  simp [linesText, unlines, List.flatMap_map]

theorem linesText_cons (l : String) (ls : List String) : linesText (l :: ls) = l ++ "\n" ++ linesText ls := by
  rw [linesText, List.map_cons, String.join_cons]
  rfl

theorem linesText_append (ls ms : List String) : linesText (ls ++ ms) = linesText ls ++ linesText ms := by
  rw [linesText, List.map_append, String.join_append]
  rfl

theorem not_mem_unlines {x : Char} (hx : x ≠ '\n') {ls : List (List Char)} (h : ∀ l ∈ ls, x ∉ l) :
    x ∉ unlines ls := by
  intro hm
  obtain ⟨l, hl, hxl⟩ := List.mem_flatMap.1 hm
  rcases List.mem_append.1 hxl with hxl | hxl
  · exact h l hl hxl
  · exact hx (List.mem_singleton.1 hxl)

theorem not_mem_concat {x : Char} {s t : String} (hs : x ∉ s.toList) (ht : x ∉ t.toList) :
    x ∉ (s ++ t).toList := by
  rw [String.toList_append, List.mem_append, not_or]
  exact ⟨hs, ht⟩

theorem not_mem_intercalate {x : Char} {sep : String} (hs : x ∉ sep.toList) {ss : List String}
    (h : ∀ s ∈ ss, x ∉ s.toList) : x ∉ (sep.intercalate ss).toList := by
  induction ss with
  | nil => simp
  | cons s ss ih =>
      cases ss with
      | nil => simpa using h s
      | cons t ts =>
          have hs' := h s (by simp)
          have ht := ih fun u hu => h u (List.mem_cons_of_mem _ hu)
          rw [String.intercalate_cons_cons]
          exact not_mem_concat (not_mem_concat hs' hs) ht

theorem mem_intercalate {c : Char} {sep : String} {ss : List String} (h : c ∈ (sep.intercalate ss).toList) :
    c ∈ sep.toList ∨ ∃ s ∈ ss, c ∈ s.toList := by
  by_cases hsep : c ∈ sep.toList
  · exact .inl hsep
  · by_contra hnot
    have hnone : ∀ s ∈ ss, c ∉ s.toList := fun s hs hc => hnot (.inr ⟨s, hs, hc⟩)
    exact not_mem_intercalate hsep hnone h

theorem nextLine?_line {l : List Char} (hl : '\n' ∉ l) (r : List Char) :
    nextLine? (l ++ '\n' :: r) = some r := by
  rw [nextLine?, cut_append hl]

theorem span_append {γ : Type} {p : γ → Bool} {xs ys : List γ} (h : ∀ x ∈ xs, p x = true)
    (hy : ys.head?.any p = false) : (xs ++ ys).span p = (xs, ys) := by
  rw [List.span_eq_takeWhile_dropWhile, List.takeWhile_append_of_pos h, List.dropWhile_append_of_pos h]
  cases ys with
  | nil => simp
  | cons y ys =>
      have hp : p y = false := by simpa using hy
      simp [hp]

variable {α β : Type} {f : List Char → Option (α × List Char)}

theorem scan_of_none {l r : List Char} (hl : '\n' ∉ l) (h : f (l ++ '\n' :: r) = none) :
    scan f (l ++ '\n' :: r) = scan f r := by
  rw [scan, h]
  dsimp only
  split
  next r' hr =>
    rw [nextLine?_line hl] at hr
    rw [Option.some.inj hr]
  next hr => simp [nextLine?_line hl] at hr

theorem scan_of_some {l m r : List Char} {a : α} (hm : '\n' ∉ m) (hs : m.length ≤ l.length)
    (h : f (l ++ '\n' :: r) = some (a, m ++ '\n' :: r)) :
    scan f (l ++ '\n' :: r) = a :: scan f r := by
  rw [scan, h]
  simp only [nextLine?_line hm]
  rw [if_pos (by simp; omega)]

def Reads (f : List Char → Option (α × List Char)) (ls : List (List Char)) (as : List α) : Prop :=
  ∀ r, scan f (unlines ls ++ r) = as ++ scan f r

theorem Reads.nil : Reads f [] [] := fun _ => rfl

theorem Reads.append {ls ms : List (List Char)} {as bs : List α} (h : Reads f ls as) (h' : Reads f ms bs) :
    Reads f (ls ++ ms) (as ++ bs) := by
  intro r
  rw [unlines_append, List.append_assoc, h, h', List.append_assoc]

theorem Reads.flatMap {xs : List β} {g : β → List (List Char)} {k : β → List α}
    (h : ∀ x ∈ xs, Reads f (g x) (k x)) : Reads f (xs.flatMap g) (xs.flatMap k) := by
  induction xs with
  | nil => exact Reads.nil
  | cons x xs ih => exact (h x (by simp)).append (ih fun y hy => h y (by simp [hy]))

theorem Reads.pass {l : List Char} (hl : '\n' ∉ l) (h : ∀ r, f (l ++ '\n' :: r) = none) :
    Reads f [l] [] := by
  intro r
  simpa using scan_of_none hl (h r)

theorem Reads.find {l m : List Char} {a : α} (hm : '\n' ∉ m) (hs : m.length ≤ l.length)
    (h : ∀ r, f (l ++ '\n' :: r) = some (a, m ++ '\n' :: r)) : Reads f [l] [a] := by
  intro r
  simpa using scan_of_some hm hs (h r)

theorem Reads.passAll {ls : List (List Char)} (hl : ∀ l ∈ ls, '\n' ∉ l)
    (h : ∀ l ∈ ls, ∀ r, f (l ++ '\n' :: r) = none) : Reads f ls [] := by
  induction ls with
  | nil => exact Reads.nil
  | cons l ls ih =>
      have hr := Reads.pass (hl l (by simp)) (h l (by simp))
      exact hr.append (ih (fun m hm => hl m (by simp [hm])) fun m hm => h m (by simp [hm]))

theorem scan_nil (h : f [] = none) : scan f [] = [] := by
  rw [scan, h]
  rfl

theorem Reads.scan_eq {ls : List (List Char)} {as : List α} (h : Reads f ls as) (hn : f [] = none) :
    scan f (unlines ls) = as := by
  have he := h []
  rwa [List.append_nil, scan_nil hn, List.append_nil] at he

end ApiScaffold.Text
