import ApiScaffold.Proofs.Json
import ApiScaffold.Proofs.Json.Numeral
import ApiScaffold.Proofs.Json.Reading

namespace ApiScaffold

namespace Data

mutual

/-- Whether JSON has a value by its standard: no number is infinite, none is not a number, and keys are texts. -/
def isStandard : Data → Bool
  | null | bool _ | str _ | number (.int _) | number (.float (.finite _ _ _)) => true
  | list items => allStandard items
  | mapping entries => entriesStandard entries
  | _ => false

def allStandard : List Data → Bool
  | [] => true
  | d :: ds => isStandard d && allStandard ds

def entriesStandard : List (Data × Data) → Bool
  | [] => true
  | (str _, v) :: es => isStandard v && entriesStandard es
  | _ :: _ => false

end

inductive IsScalar : Data → Prop
  | null : IsScalar null
  | bool (b : Bool) : IsScalar (bool b)
  | number {x : Number} : x.IsWritable → IsScalar (number x)
  | str (s : String) : IsScalar (str s)

end Data

namespace Json

theorem isSpace_of_isDigit {c : Char} (h : c.isDigit = true) : isSpace c = false := by
  rw [Bool.eq_false_iff]
  intro hspace
  simp only [isSpace, Bool.or_eq_true, beq_iff_eq] at hspace
  rcases hspace with ((rfl | rfl) | rfl) | rfl <;> cases h

end Json

namespace Data

open Json

variable {d : Data} {r : List Char}

theorem IsScalar.isStandard (h : d.IsScalar) : d.isStandard = true := by
  cases h with
  | @number x hx =>
      match x, hx with
      | .int n, _ => rfl
      | .float (.finite s m e), _ => rfl
  | null | bool b | str s => rfl

theorem IsScalar.json_cons (h : d.IsScalar) : ∃ c cs, d.json.toList = c :: cs ∧ isSpace c = false ∧ c ≠ ']' := by
  cases h with
  | null => exact ⟨_, _, rfl, rfl, by decide⟩
  | bool b => cases b <;> exact ⟨_, _, rfl, rfl, by decide⟩
  | number hx =>
      obtain ⟨negative, c, cs, htext, hc, -⟩ := exists_magnitude hx
      cases negative with
      | true => exact ⟨'-', c :: cs, htext, rfl, by decide⟩
      | false =>
          refine ⟨c, cs, htext, isSpace_of_isDigit hc, ?_⟩
          rintro rfl
          cases hc
  | str s =>
      have hquote := toList_quote s []
      rw [List.append_nil] at hquote
      exact ⟨_, _, hquote, rfl, by decide⟩

theorem IsScalar.readValue_json (h : d.IsScalar) (hr : EndsNumber r) (fuel : Nat) :
    readValue (fuel + 1) (d.json.toList ++ r) = .ok (d, r) := by
  cases h with
  | null => rfl
  | bool b => cases b <;> rfl
  | number hx => exact readValue_number hx hr fuel
  | str s =>
      rw [json, toList_quote, readValue, readText_quote]
      exact congrArg (fun d => Except.ok (d, r)) (ofCodes_text s)

end Data

namespace Json

/-- The value of a text by the standard. All that the reader takes beyond it are the words for the infinite numbers and for
what is no number. -/
def readStrict (s : String) : Option Data := (read? s).filter Data.isStandard

open Data

variable {d : Data} {r : List Char} {ds : List Data} {es : List (String × Data)} {fuel : Nat}

section Row

variable {α β : Type} {text : α → String} {value : α → β} {close : Char} {a : α} {as : List α}
  {step : Nat → List Char → Except Fault (List β × List Char)}

def rowText (text : α → String) (as : List α) : List Char := (", ".intercalate (as.map text)).toList

/-- The reader of a row takes an element, together with the comma or the closing bracket behind it. -/
structure ReadsElement (step : Nat → List Char → Except Fault (List β × List Char)) (text : α → String) (value : α → β)
    (close : Char) (a : α) : Prop where
  opens : ∃ c cs, (text a).toList = c :: cs ∧ isSpace c = false ∧ c ≠ close
  next : ∀ fuel r, step (fuel + 2) ((text a).toList ++ ',' :: r) =
    (step (fuel + 1) (skip r)).map fun p => (value a :: p.1, p.2)
  last : ∀ fuel r, step (fuel + 2) ((text a).toList ++ close :: r) = .ok ([value a], r)

theorem rowText_singleton (text : α → String) (a : α) : rowText text [a] = (text a).toList := by
  rw [rowText, List.map_singleton, String.intercalate_singleton]

theorem rowText_cons_cons (text : α → String) (a b : α) (as : List α) :
    rowText text (a :: b :: as) = (text a).toList ++ ',' :: ' ' :: rowText text (b :: as) := by
  rw [rowText, List.map_cons, List.map_cons, String.intercalate_cons_cons, ← List.map_cons, String.toList_append,
    String.toList_append, List.append_assoc]
  rfl

theorem ReadsElement.rowText_opens (h : ReadsElement step text value close a) (as : List α) :
    ∃ c cs, rowText text (a :: as) = c :: cs ∧ isSpace c = false ∧ c ≠ close := by
  obtain ⟨c, cs, hcs, hc⟩ := h.opens
  cases as with
  | nil => exact ⟨c, cs, by rw [rowText_singleton, hcs], hc⟩
  | cons b as => exact ⟨c, _, by rw [rowText_cons_cons, hcs]; rfl, hc⟩

/-- Elements are read one after the other, each in its place. -/
theorem read_row (h : ∀ a ∈ as, ReadsElement step text value close a) (hne : as ≠ []) (hfuel : as.length < fuel) :
    step fuel (rowText text as ++ close :: r) = .ok (as.map value, r) := by
  induction as generalizing fuel with
  | nil => exact absurd rfl hne
  | cons a as ih =>
      obtain ⟨ha, has⟩ := List.forall_mem_cons.1 h
      rw [List.length_cons] at hfuel
      obtain ⟨f, rfl⟩ : ∃ f, fuel = f + 2 := ⟨fuel - 2, by omega⟩
      cases as with
      | nil =>
          rw [rowText_singleton, ha.last]
          rfl
      | cons b as =>
          have hskip : skip (' ' :: (rowText text (b :: as) ++ close :: r)) = rowText text (b :: as) ++ close :: r := by
            obtain ⟨c, cs, hcs, hc, -⟩ := (has b List.mem_cons_self).rowText_opens as
            rw [skip_cons rfl, hcs]
            exact List.dropWhile_cons_of_neg (by simp [hc])
          rw [rowText_cons_cons, List.append_assoc]
          change step (f + 2) ((text a).toList ++ ',' :: ' ' :: (rowText text (b :: as) ++ close :: r)) = _
          rw [ha.next, hskip, ih has (List.cons_ne_nil b as) (by omega)]
          rfl

theorem length_le_rowText (h : ∀ a ∈ as, ReadsElement step text value close a) :
    as.length ≤ (rowText text as).length := by
  induction as with
  | nil => exact Nat.zero_le _
  | cons a as ih =>
      obtain ⟨ha, has⟩ := List.forall_mem_cons.1 h
      cases as with
      | nil =>
          obtain ⟨c, cs, hcs, -⟩ := ha.rowText_opens []
          rw [hcs]
          exact Nat.succ_le_succ (Nat.zero_le _)
      | cons b as =>
          have hrest := ih has
          rw [List.length_cons] at hrest
          rw [rowText_cons_cons, List.length_append]
          simp only [List.length_cons]
          omega

theorem read_last_row (h : ∀ a ∈ as, ReadsElement step text value close a) (hne : as ≠ []) :
    step ((rowText text as ++ [close]).length + 1) (rowText text as ++ [close]) = .ok (as.map value, []) := by
  have hlength := length_le_rowText h
  refine read_row h hne ?_
  rw [List.length_append]
  omega

end Row

/-- A value that begins the text and ends it is what the text is read as. -/
theorem read_of_readValue {s : String} {c : Char} {cs : List Char} (hs : s.toList = c :: cs)
    (hspace : isSpace c = false) (hmark : c ≠ '\ufeff') (h : readValue (cs.length + 2) (c :: cs) = .ok (d, [])) : read s = .ok d := by
  have hskip : skip (c :: cs) = c :: cs := List.dropWhile_cons_of_neg (by simp [hspace])
  have hhead : (c :: cs).head? ≠ some '\ufeff' := fun e => hmark (Option.some.inj e)
  rw [read, readWhole, hs, if_neg hhead, hskip, List.length_cons, h]
  rfl

theorem readStrict_of_read {s : String} (h : read s = .ok d) (hd : d.isStandard = true) : readStrict s = some d := by
  have hread : read? s = some d := by
    rw [read?, h]
    rfl
  rw [readStrict, hread]
  exact Option.filter_some_pos hd

theorem jsons_eq_map (ds : List Data) : jsons ds = ds.map json := by
  induction ds with
  | nil => rfl
  | cons d ds ih => exact congrArg (d.json :: ·) ih

theorem toList_list (ds : List Data) : (list ds).json.toList = '[' :: (rowText json ds ++ [']']) := by
  rw [json, jsons_eq_map, String.toList_append, String.toList_append]
  rfl

theorem endsNumber_cons {c : Char} (hc : c ∈ [',', ']', '\x7d']) (r : List Char) : EndsNumber (c :: r) := by
  simp only [List.mem_cons, List.not_mem_nil, or_false] at hc
  rcases hc with rfl | rfl | rfl <;> exact ⟨rfl, by simp, by simp⟩

theorem readItems_item (hd : d.IsScalar) (hr : EndsNumber r) (fuel : Nat) :
    readItems (fuel + 2) (d.json.toList ++ r) = match skip r with
      | ',' :: r => (readItems (fuel + 1) (skip r)).map fun p => (d :: p.1, p.2)
      | ']' :: r => .ok ([d], r)
      | r => fail .comma r := by
  rw [readItems, hd.readValue_json hr]
  rfl

theorem readsElement_item (hd : d.IsScalar) : ReadsElement readItems json id ']' d where
  opens := hd.json_cons
  next fuel r := readItems_item hd (endsNumber_cons (by simp) r) fuel
  last fuel r := readItems_item hd (endsNumber_cons (by simp) r) fuel

theorem readValue_items {c : Char} {cs : List Char} (hspace : isSpace c = false) (hclose : c ≠ ']') (fuel : Nat) :
    readValue (fuel + 1) ('[' :: c :: cs) = (readItems fuel (c :: cs)).map fun p => (.list p.1, p.2) := by
  have hskip : skip (c :: cs) = c :: cs := List.dropWhile_cons_of_neg (by simp [hspace])
  rw [readValue, hskip]
  split
  next h => exact absurd (List.cons.inj h).1 hclose
  next => rfl

theorem read_list (hds : ∀ d ∈ ds, d.IsScalar) : read (list ds).json = .ok (list ds) := by
  have hitems : ∀ d ∈ ds, ReadsElement readItems json id ']' d := fun d hd => readsElement_item (hds d hd)
  refine read_of_readValue (toList_list ds) rfl (by decide) ?_
  cases ds with
  | nil => rfl
  | cons d ds =>
      obtain ⟨c, cs, hcs, hspace, hclose⟩ := (hitems d List.mem_cons_self).rowText_opens ds
      have hrow := read_last_row hitems (List.cons_ne_nil d ds)
      rw [hcs, List.cons_append] at hrow ⊢
      rw [readValue_items hspace hclose, hrow, List.map_id]
      rfl

theorem readStrict_list (hds : ∀ d ∈ ds, d.IsScalar) : readStrict (list ds).json = some (list ds) := by
  refine readStrict_of_read (read_list hds) ?_
  rw [Data.isStandard]
  induction ds with
  | nil => rfl
  | cons d ds ih =>
      obtain ⟨hd, hds⟩ := List.forall_mem_cons.1 hds
      rw [allStandard, hd.isStandard, ih hds]
      rfl

def object (es : List (String × Data)) : Data := .mapping (es.map fun p => (.str p.1, p.2))

def memberText (p : String × Data) : String := quote p.1 ++ ": " ++ p.2.json

theorem entryJsons_map (es : List (String × Data)) :
    entryJsons (es.map fun p => (.str p.1, p.2)) = es.map memberText := by
  induction es with
  | nil => rfl
  | cons p es ih => exact congrArg (memberText p :: ·) ih

theorem toList_memberText (k : String) (d : Data) (r : List Char) : (memberText (k, d)).toList ++ r =
    '"' :: (k.toList.flatMap escape ++ '"' :: ':' :: ' ' :: (d.json.toList ++ r)) := by
  simp only [memberText, String.toList_append, List.append_assoc]
  rw [toList_quote]
  rfl

theorem toList_object (es : List (String × Data)) :
    (object es).json.toList = '\x7b' :: (rowText memberText es ++ ['\x7d']) := by
  rw [object, json, entryJsons_map, String.toList_append, String.toList_append]
  rfl

theorem readEntries_memberText (k : String) (hd : d.IsScalar) (hr : EndsNumber r) (fuel : Nat) :
    readEntries (fuel + 2) ((memberText (k, d)).toList ++ r) = match skip r with
      | ',' :: r => (readEntries (fuel + 1) (skip r)).map fun p => ((.str k, d) :: p.1, p.2)
      | '\x7d' :: r => .ok ([(.str k, d)], r)
      | r => fail .comma r := by
  obtain ⟨c, cs, hcs, hc, -⟩ := hd.json_cons
  rw [toList_memberText]
  exact Layout.readEntries_value ⟨c, cs, hcs, hc⟩ (hd.readValue_json hr fuel) k

theorem memberText_cons (p : String × Data) : ∃ cs, (memberText p).toList = '"' :: cs := by
  have htext := toList_memberText p.1 p.2 []
  rw [List.append_nil] at htext
  exact ⟨_, htext⟩

theorem readsElement_member {p : String × Data} (hp : p.2.IsScalar) :
    ReadsElement readEntries memberText (fun p => (.str p.1, p.2)) '\x7d' p where
  opens := by
    obtain ⟨cs, hcs⟩ := memberText_cons p
    exact ⟨'"', cs, hcs, rfl, by decide⟩
  next fuel r := readEntries_memberText p.1 hp (endsNumber_cons (by simp) r) fuel
  last fuel r := readEntries_memberText p.1 hp (endsNumber_cons (by simp) r) fuel

theorem readValue_members {c : Char} {cs : List Char} (hspace : isSpace c = false) (hclose : c ≠ '\x7d') (fuel : Nat) :
    readValue (fuel + 1) ('\x7b' :: c :: cs) = (readEntries fuel (c :: cs)).map fun p => (.mapping p.1, p.2) := by
  have hskip : skip (c :: cs) = c :: cs := List.dropWhile_cons_of_neg (by simp [hspace])
  rw [readValue, hskip]
  split
  next h => exact absurd (List.cons.inj h).1 hclose
  next => rfl

/-- An object of scalars is read as itself. -/
theorem read_object (hes : ∀ p ∈ es, p.2.IsScalar) : read (object es).json = .ok (object es) := by
  have hmembers : ∀ p ∈ es, ReadsElement readEntries memberText (fun p => (Data.str p.1, p.2)) '\x7d' p :=
    fun p hp => readsElement_member (hes p hp)
  refine read_of_readValue (toList_object es) rfl (by decide) ?_
  cases es with
  | nil => rfl
  | cons p es =>
      obtain ⟨c, cs, hcs, hspace, hclose⟩ := (hmembers p List.mem_cons_self).rowText_opens es
      have hrow := read_last_row hmembers (List.cons_ne_nil p es)
      rw [hcs, List.cons_append] at hrow ⊢
      rw [readValue_members hspace hclose, hrow]
      rfl

theorem object_isStandard (hes : ∀ p ∈ es, p.2.isStandard = true) : (object es).isStandard = true := by
  rw [object, Data.isStandard]
  induction es with
  | nil => rfl
  | cons p es ih =>
      obtain ⟨hp, hes⟩ := List.forall_mem_cons.1 hes
      rw [List.map_cons, entriesStandard, hp, ih hes]
      rfl

theorem readStrict_object (hes : ∀ p ∈ es, p.2.IsScalar) : readStrict (object es).json = some (object es) :=
  readStrict_of_read (read_object hes) (object_isStandard fun p hp => (hes p hp).isStandard)

end Json

end ApiScaffold
