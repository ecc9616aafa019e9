import ApiScaffold.Path
import Mathlib.Data.List.Basic

namespace ApiScaffold

namespace Path

/-- What can stand between two slashes and is kept. -/
structure IsPart (s : String) : Prop where
  ne_empty : s ≠ ""
  ne_dot : s ≠ "."
  noSlash : '/' ∉ s.toList

instance (s : String) : Decidable (IsPart s) :=
  decidable_of_iff (s ≠ "" ∧ s ≠ "." ∧ '/' ∉ s.toList)
    ⟨fun h => ⟨h.1, h.2.1, h.2.2⟩, fun h => ⟨h.ne_empty, h.ne_dot, h.noSlash⟩⟩

theorem IsPart.isPart_eq {s : String} (h : IsPart s) : isPart s = true := by
  simp [isPart, h.ne_empty, h.ne_dot]

variable {ps qs : List String}

theorem toList_intercalate_slash (ps : List String) :
    ("/".intercalate ps).toList = ['/'].intercalate (ps.map String.toList) := String.toList_intercalate

theorem filter_split_intercalate (h : ∀ s ∈ ps, IsPart s) :
    ((("/".intercalate ps).toList.splitOn '/').map String.ofList).filter isPart = ps := by
  cases ps with
  | nil => rfl
  | cons p ps =>
      have hslash : ∀ l ∈ (p :: ps).map String.toList, '/' ∉ l := by
        intro l hl
        obtain ⟨s, hs, rfl⟩ := List.mem_map.1 hl
        exact (h s hs).noSlash
      rw [toList_intercalate_slash, List.splitOn_intercalate '/' hslash (by simp), List.map_map,
        show String.ofList ∘ String.toList = id from funext fun s => String.ofList_toList, List.map_id]
      exact List.filter_eq_self.2 fun s hs => (h s hs).isPart_eq

theorem head?_intercalate (h : ∀ s ∈ ps, IsPart s) : ("/".intercalate ps).toList.head? ≠ some '/' := by
  cases ps with
  | nil => simp
  | cons p ps =>
      have hp := h p (by simp)
      cases hl : p.toList with
      | nil => exact absurd (String.toList_eq_nil_iff.1 hl) hp.ne_empty
      | cons c cs =>
          have hc : c ≠ '/' := fun e => hp.noSlash (by simp [hl, e])
          rw [toList_intercalate_slash, List.map_cons, hl]
          cases ps <;> simpa [List.intercalate_cons_cons] using hc

theorem ofText_intercalate (h : ∀ s ∈ ps, IsPart s) : ofText ("/".intercalate ps) = ⟨false, ps⟩ := by
  rw [ofText, filter_split_intercalate h, beq_eq_false_iff_ne.2 (head?_intercalate h)]

theorem not_mem_of_mem_splitOn {x : Char} {cs l : List Char} (h : l ∈ cs.splitOn x) : x ∉ l := by
  induction cs generalizing l with
  | nil =>
      rw [List.splitOn_nil, List.mem_singleton] at h
      simp [h]
  | cons c cs ih =>
      rw [List.splitOn_cons_eq_if_modifyHead] at h
      split at h
      next =>
        rcases List.mem_cons.1 h with rfl | h
        · simp
        · exact ih h
      next hc =>
        have hne : x ≠ c := fun e => hc (by simp [e])
        cases hs : cs.splitOn x with
        | nil => exact absurd hs (List.splitOn_ne_nil x cs)
        | cons m ms =>
            rw [hs, List.modifyHead_cons] at h
            rw [hs] at ih
            rcases List.mem_cons.1 h with rfl | h
            · have hm := @ih m (by simp)
              simp [hne, hm]
            · exact ih (List.mem_cons_of_mem _ h)

theorem isPart_of_mem_parts {t s : String} (h : s ∈ (ofText t).parts) : IsPart s := by
  obtain ⟨hs, hp⟩ := List.mem_filter.1 h
  obtain ⟨l, hl, rfl⟩ := List.mem_map.1 hs
  simp only [isPart, Bool.and_eq_true, bne_iff_ne] at hp
  refine ⟨hp.1, hp.2, ?_⟩
  rw [String.toList_ofList]
  exact not_mem_of_mem_splitOn hl

theorem ofText_text {p : Path} (h : ∀ s ∈ p.parts, IsPart s) : ofText p.text = p := by
  obtain ⟨absolute, ps⟩ := p
  cases absolute with
  | false =>
      cases ps with
      | nil => rfl
      | cons p ps => exact ofText_intercalate h
  | true =>
      have htext : ("/" ++ "/".intercalate ps).toList = '/' :: ("/".intercalate ps).toList := by
        rw [String.toList_append]
        rfl
      have hsplit : ('/' :: ("/".intercalate ps).toList).splitOn '/' =
          [] :: ("/".intercalate ps).toList.splitOn '/' := by
        simp [List.splitOn_cons_eq_if_modifyHead]
      rw [ofText, show text ⟨true, ps⟩ = "/" ++ "/".intercalate ps from rfl, htext, hsplit, List.map_cons,
        List.filter_cons_of_neg (by simp [isPart]),
        filter_split_intercalate h]
      rfl

theorem isPart_join {p q : Path} (hp : ∀ s ∈ p.parts, IsPart s) (hq : ∀ s ∈ q.parts, IsPart s) :
    ∀ s ∈ (p.join q).parts, IsPart s := by
  unfold join
  split
  · exact hq
  · intro s hs
    rcases List.mem_append.1 hs with hs | hs
    · exact hp s hs
    · exact hq s hs

def below (p : Path) (ps : List String) : Path := ⟨p.absolute, p.parts ++ ps⟩

@[simp] theorem below_nil (p : Path) : p.below [] = p := by simp [below]

theorem below_append (p : Path) (ps qs : List String) : p.below (ps ++ qs) = (p.below ps).below qs := by
  simp [below]

theorem parent_below (p : Path) {ps : List String} (h : ps ≠ []) :
    (p.below ps).parent = p.below ps.dropLast := by
  simp [below, parent, List.dropLast_append_of_ne_nil h]

theorem div_eq_below (p : Path) {s : String} (h : ofText s = ⟨false, ps⟩) : p / s = p.below ps := by
  change p.join (ofText s) = _
  rw [h]
  rfl

theorem hasNull_below (p : Path) (ps : List String) :
    (p.below ps).hasNull = (p.hasNull || ps.any fun s => s.toList.contains '\x00') := by
  simp [hasNull, below]

theorem isLong_of_below {p : Path} (h : p.isLong = true) (qs : List String) : (p.below qs).isLong = true := by
  obtain ⟨absolute, ps⟩ := p
  have hsize : ("/".intercalate ps).utf8ByteSize ≤ ("/".intercalate (ps ++ qs)).utf8ByteSize := by
    cases ps with
    | nil => simp
    | cons p ps =>
        cases qs with
        | nil => simp
        | cons q qs =>
            rw [String.intercalate_append_of_ne_nil (by simp) (by simp)]
            simp only [String.utf8ByteSize_append]
            omega
  simp only [isLong, decide_eq_true_eq] at h ⊢
  refine Nat.le_trans h ?_
  cases absolute with
  | true =>
      simp only [below, text, String.utf8ByteSize_append]
      omega
  | false =>
      cases ps with
      | nil => exact absurd h (by decide)
      | cons p ps => exact hsize

end Path

end ApiScaffold
