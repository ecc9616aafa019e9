import ApiScaffold.Proofs.Project.Readme
import ApiScaffold.Proofs.Text.Breaks

namespace ApiScaffold

namespace Text

variable {α : Type} {cs l r ps : List Char} {x : Char} {p : Char → Bool}

theorem stripLead?_line (hp : '\n' ∉ ps) (l r : List Char) :
    stripLead? ps (l ++ '\n' :: r) = (stripLead? ps l).map (· ++ '\n' :: r) := by
  induction ps generalizing l with
  | nil => rfl
  | cons p ps ih =>
      obtain ⟨hne, hps⟩ := not_or.1 fun h => hp (List.mem_cons.2 h)
      cases l with
      | nil => exact if_neg (Ne.symm hne)
      | cons c l =>
          rw [List.cons_append, stripLead?, stripLead?]
          split
          · exact ih hps l
          · rfl

theorem span_line (hp : p '\n' = false) (l r : List Char) :
    (l ++ '\n' :: r).span p = ((l.span p).1, (l.span p).2 ++ '\n' :: r) := by
  simp only [List.span_eq_takeWhile_dropWhile]
  induction l with
  | nil => simp [hp]
  | cons c l ih =>
      obtain ⟨htake, hdrop⟩ := Prod.mk.inj ih
      cases hc : p c with
      | true => simp [hc, htake, hdrop]
      | false => simp [hc]

theorem stripStart_line (h : stripStart l ≠ []) (r : List Char) :
    stripStart (l ++ r) = stripStart l ++ r := by
  rw [stripStart, List.dropWhile_append]
  exact if_neg fun he => h (List.isEmpty_iff.1 he)

theorem stripStart_blank (h : stripStart l = []) (r : List Char) : stripStart (l ++ r) = stripStart r := by
  rw [stripStart, List.dropWhile_append]
  exact if_pos (List.isEmpty_iff.2 h)

end Text

namespace Readme

open Text

variable {cs ds l m r : List Char} {a : String × String}

theorem request?_congr (h : stripStart cs = stripStart ds) : request? cs = request? ds := by
  rw [request?, request?, h]

theorem request?_nil (h : stripStart cs = []) : request? cs = none := by
  rw [request?, h]
  rfl

theorem request?_line (hl : stripStart l ≠ []) (r : List Char) :
    request? (l ++ '\n' :: r) = (request? l).map fun q => (q.1, q.2 ++ '\n' :: r) := by
  have hopen : '\n' ∉ "curl -X POST ".toList := by decide
  have hjson : '\n' ∉ " -H \"Content-Type: application/json\" -d '".toList := by decide
  rw [request?, request?, stripStart_line hl, stripLead?_line hopen]
  cases stripLead? "curl -X POST ".toList (stripStart l) with
  | none => rfl
  | some s =>
      simp only [Option.map_some, Option.bind_eq_bind, Option.bind_some,
        span_line (p := fun c => !isBlank c) rfl, stripLead?_line hjson]
      cases lastPart? (s.span fun c => !isBlank c).1 with
      | none => rfl
      | some name =>
          cases stripLead? " -H \"Content-Type: application/json\" -d '".toList
              (s.span fun c => !isBlank c).2 with
          | none => rfl
          | some t =>
              simp only [Option.map_some, Option.bind_some, span_line (p := (· != '\n')) rfl]
              cases beforeQuote? (t.span (· != '\n')).1 <;> rfl

/-- The pieces of a request that is read, in their order. -/
structure IsRequest (cs url line r : List Char) (a : String × String) : Prop where
  strip_eq : stripStart cs = "curl -X POST ".toList ++ (url ++
    (" -H \"Content-Type: application/json\" -d '".toList ++ (line ++ r)))
  isWord : IsWord url
  lastPart : lastPart? url = some a.1.toList
  oneLine : '\n' ∉ line
  payload : beforeQuote? line = some a.2.toList

theorem request?_inv (h : request? cs = some (a, r)) : ∃ url line, IsRequest cs url line r a := by
  simp only [request?, Option.bind_eq_bind, Option.bind_eq_some_iff] at h
  obtain ⟨s, hopen, name, hname, t, hjson, payload, hpayload, h⟩ := h
  obtain ⟨rfl, rfl⟩ := Prod.mk.inj (Option.some.inj h)
  obtain ⟨hurl, hword⟩ := span_eq (p := fun c => !isBlank c) s
  obtain ⟨hline, hfree⟩ := span_eq (p := (· != '\n')) t
  refine ⟨(s.span fun c => !isBlank c).1, (t.span (· != '\n')).1, ?_, fun c hc => by simpa using hword c hc, ?_,
    fun hc => by simpa using hfree _ hc, ?_⟩
  · rw [← hline, ← eq_append_of_stripLead? hjson, ← hurl, ← eq_append_of_stripLead? hopen]
  · rw [hname, String.toList_ofList]
  · rw [hpayload, String.toList_ofList]

theorem suffix_of_request? (h : request? cs = some (a, r)) : r <:+ cs := by
  obtain ⟨url, line, hi⟩ := request?_inv h
  have hstrip : stripStart cs <:+ cs := List.dropWhile_suffix _
  refine List.IsSuffix.trans ?_ hstrip
  rw [hi.strip_eq]
  exact ((List.suffix_append _ _).trans (List.suffix_append _ _)).trans
    ((List.suffix_append _ _).trans (List.suffix_append _ _))

def lineRequest? (l : List Char) : Option (String × String) := (request? l).map Prod.fst

theorem lineRequest?_inv (h : lineRequest? l = some a) : ∃ url line r, IsRequest l url line r a := by
  obtain ⟨⟨a, r⟩, hr, rfl⟩ := Option.map_eq_some_iff.1 h
  obtain ⟨url, line, hi⟩ := request?_inv hr
  exact ⟨url, line, r, hi⟩

theorem scan_blank (hl : '\n' ∉ l) (h : stripStart l = []) (r : List Char) :
    scan request? (l ++ '\n' :: r) = scan request? r := by
  have hbelow : request? (l ++ '\n' :: r) = request? r := request?_congr (stripStart_blank h _)
  cases hr : request? r with
  | none => exact scan_of_none hl (hbelow.trans hr)
  | some q =>
      obtain ⟨a, m⟩ := q
      have hm := (suffix_of_request? hr).length_le
      rw [scan, scan, hbelow, hr]
      dsimp only
      split
      next m' hnext =>
        have hlt := nextLine?_length hnext
        rw [if_pos (by rw [List.length_append, List.length_cons]; omega), if_pos (by omega)]
      next => rfl

theorem reads_line (hl : '\n' ∉ l) : Reads request? [l] (lineRequest? l).toList := by
  by_cases h : stripStart l = []
  · intro r
    rw [lineRequest?, request?_nil h]
    simpa using scan_blank hl h r
  · cases hq : request? l with
    | none =>
        rw [lineRequest?, hq]
        exact .pass hl fun r => by rw [request?_line h, hq]; rfl
    | some q =>
        obtain ⟨a, m⟩ := q
        have hm := suffix_of_request? hq
        rw [lineRequest?, hq]
        exact .find (fun hc => hl (hm.subset hc)) hm.length_le fun r => by rw [request?_line h, hq]; rfl

/-- The requests of a text are those of its lines. -/
theorem scan_lines (cs : List Char) : scan request? cs = (cs.splitOn '\n').filterMap lineRequest? := by
  induction cs using line_induction (x := '\n') with
  | last cs hbreak =>
      have hlast {m : List Char} (hm : m <:+ cs) : nextLine? m = none := by
        rw [nextLine?, cut_of_not_mem fun hc => hbreak (hm.subset hc)]
      rw [List.splitOn_eq_singleton hbreak, List.filterMap_cons, List.filterMap_nil, scan, lineRequest?]
      cases hq : request? cs with
      | none =>
          dsimp only
          split
          next hnext =>
            rw [hlast (List.suffix_refl cs)] at hnext
            cases hnext
          next => rfl
      | some q =>
          obtain ⟨a, m⟩ := q
          dsimp only
          rw [hlast (suffix_of_request? hq)]
          rfl
  | line as bs has ih =>
      have hline := reads_line has bs
      rw [unlines_cons, unlines_nil, List.append_assoc, List.cons_append, List.nil_append] at hline
      rw [hline, ih, List.splitOn_append_cons_self_of_not_mem has, List.filterMap_cons]
      cases lineRequest? as <;> rfl

end Readme

end ApiScaffold
