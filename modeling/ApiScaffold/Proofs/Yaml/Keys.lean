import ApiScaffold.Proofs.Keyed
import ApiScaffold.Yaml.Value

namespace ApiScaffold

namespace Data

variable {es : List (Data × Data)} {a b k v : Data} {s key : String}

def text? : Data → Option String
  | str s => some s
  | _ => none

def textual (es : List (Data × Data)) : List (String × Data) := es.filterMap fun e => (text? e.1).map (·, e.2)

theorem text?_eq_some_iff : text? a = some s ↔ a = str s := by
  cases a with
  | str t => simp [text?]
  | _ => simp [text?]

theorem text?_eq_of_isSameKey (h : a.isSameKey b = true) : text? a = text? b := by
  cases a with
  | str s =>
    cases b with
    | str t => exact congrArg some (beq_iff_eq.1 h)
    | _ => cases h
  | _ =>
    cases b with
    | str t => simp [isSameKey, numeric?] at h
    | _ => rfl

theorem isSameKey_of_text? (ha : text? a = some s) (hb : text? b = some s) : a.isSameKey b = true := by
  rw [text?_eq_some_iff.1 ha, text?_eq_some_iff.1 hb]
  exact beq_self_eq_true s

theorem textual_putEntry (k v : Data) (es : List (Data × Data)) : textual (putEntry k v es) =
    match text? k with
    | some s => Keyed.put s v (textual es)
    | none => textual es := by
  induction es with
  | nil => cases hk : text? k <;> simp [putEntry, textual, hk, Keyed.put]
  | cons e es ih =>
    obtain ⟨x, w⟩ := e
    have hcons (y : Data) (rest : List (Data × Data)) :
        textual ((x, y) :: rest) = ((text? x).map (·, y)).toList ++ textual rest := by
      cases hx : text? x <;> simp [textual, hx]
    rw [putEntry, hcons]
    split
    next hsame =>
      rw [hcons, text?_eq_of_isSameKey hsame]
      cases text? k <;> simp [Keyed.put]
    next hsame =>
      rw [hcons, ih]
      cases hk : text? k with
      | none => rfl
      | some s =>
        cases hx : text? x with
        | none => rfl
        | some t =>
          have hts : t ≠ s := fun hts => hsame (isSameKey_of_text? (hts ▸ hx) hk)
          simp [Keyed.put, hts]

theorem nodup_putEntry (h : (Keyed.keys (textual es)).Nodup) (k v : Data) :
    (Keyed.keys (textual (putEntry k v es))).Nodup := by
  rw [textual_putEntry]
  cases text? k with
  | none => exact h
  | some s => exact Keyed.nodup_keys_put h

theorem nodup_foldl_putEntry {ts : List (Data × Data)} (h : (Keyed.keys (textual ts)).Nodup) (es : List (Data × Data)) :
    (Keyed.keys (textual (es.foldl (fun t e => putEntry e.1 e.2 t) ts))).Nodup := by
  induction es generalizing ts with
  | nil => exact h
  | cons e es ih => exact ih (nodup_putEntry h e.1 e.2)

/-- If it is a mapping, no text is a key of it twice. -/
def IsKeyed : Data → Prop
  | mapping es => (Keyed.keys (textual es)).Nodup
  | _ => True

theorem foldl_last_eq_get? {ps : List (String × Data)} (h : (Keyed.keys ps).Nodup) (found : Option Data) :
    ps.foldl (fun found p => if p.1 = key then some p.2 else found) found = (Keyed.get? key ps).or found := by
  induction ps generalizing found with
  | nil => rfl
  | cons p ps ih =>
    obtain ⟨hp, hps⟩ := List.nodup_cons.1 h
    rw [List.foldl_cons, ih hps, Keyed.get?]
    split
    next hkey =>
      rw [(Keyed.get?_eq_none_iff key ps).2 (hkey ▸ hp), Option.none_or, Option.some_or]
    next => rfl

theorem entry?_eq_get? (h : IsKeyed (mapping es)) (key : String) :
    entry? key (mapping es) = Keyed.get? key (textual es) := by
  have hfold : entry? key (mapping es) =
      (textual es).foldl (fun found p => if p.1 = key then some p.2 else found) none := by
    change es.foldl _ none = _
    rw [textual, List.foldl_filterMap]
    congr 1
    funext found e
    obtain ⟨k, v⟩ := e
    cases k <;> rfl
  rw [hfold, foldl_last_eq_get? h, Option.or_none]

theorem entry?_putEntry (h : IsKeyed (mapping es)) (s : String) (v : Data) (key : String) :
    entry? key (mapping (putEntry (str s) v es)) = if s = key then some v else entry? key (mapping es) := by
  have htextual : textual (putEntry (str s) v es) = Keyed.put s v (textual es) := textual_putEntry (str s) v es
  rw [entry?_eq_get? (nodup_putEntry h _ v), entry?_eq_get? h, htextual]
  split
  next hs => rw [← hs, Keyed.get?_put_self]
  next hs => exact Keyed.get?_put_of_ne (Ne.symm hs) v _

end Data

namespace Yaml

open Data

variable {t : Tag} {d : Data} {n : Node} {text : String}

theorem isKeyed_fractionData (x : Fraction) : (Numeral.fractionData x).IsKeyed := by
  cases x <;> trivial

theorem isKeyed_of_map {α : Type} {r : Except Failure α} {f : α → Data} (hf : ∀ a, (f a).IsKeyed)
    (h : r.map f = .ok d) : d.IsKeyed := by
  cases r with
  | ok a => cases h; exact hf a
  | error e => cases h

theorem isKeyed_float {cs : List Char} (h : Numeral.float cs = .ok d) : d.IsKeyed := by
  unfold Numeral.float at h
  split at h
  · cases h
  · dsimp only at h
    split at h
    · cases h
      exact isKeyed_fractionData _
    · split at h
      · cases h
        trivial
      · split at h
        · exact isKeyed_of_map (fun _ => isKeyed_fractionData _) h
        · exact isKeyed_of_map (fun _ => isKeyed_fractionData _) h

theorem isKeyed_time {cs : List Char} (h : Made.time cs = .ok d) : d.IsKeyed := by
  unfold Made.time at h
  split at h
  · cases h
  · split at h <;> cases h <;> trivial

theorem isKeyed_truth {cs : List Char} (h : Made.truth cs = .ok d) : d.IsKeyed := by
  unfold Made.truth at h
  dsimp only at h
  split at h
  · cases h
    trivial
  · split at h <;> cases h
    trivial

theorem isKeyed_binary {cs : List Char} (h : Made.binary cs = .ok d) : d.IsKeyed := by
  unfold Made.binary at h
  split at h
  · cases h
  · split at h <;> cases h
    trivial

theorem mapError_eq_ok {α : Type} {r : Except Failure α} {f : Failure → Fault} {a : α} (h : r.mapError f = .ok a) :
    r = .ok a := by
  cases r with
  | ok b => cases h; rfl
  | error e => cases h

theorem isKeyed_ofCodes (codes : List Nat) : (ofCodes codes).IsKeyed := by
  unfold ofCodes
  cases Text.ofCodes? codes with
  | some s => trivial
  | none => trivial

theorem isKeyed_scalarValue {codes : List Nat} (h : Made.scalarValue t codes = .ok d) : d.IsKeyed := by
  cases t with
  | null => cases h; trivial
  | str => cases h; exact isKeyed_ofCodes codes
  | binary => exact isKeyed_binary h
  | bool => exact isKeyed_truth (mapError_eq_ok h)
  | int => exact isKeyed_of_map (f := fun n => .number (.int n)) (fun _ => trivial) (mapError_eq_ok h)
  | float => exact isKeyed_float (mapError_eq_ok h)
  | timestamp => exact isKeyed_time (mapError_eq_ok h)
  | _ => cases h

theorem isKeyed_ofText (t : Tag) (text : Option (List Nat)) : (Made.ofText t text).value.IsKeyed := by
  unfold Made.ofText
  cases text with
  | none => trivial
  | some codes =>
    dsimp only
    cases h : Made.scalarValue t codes with
    | ok d => exact isKeyed_scalarValue h
    | error e => trivial

theorem isKeyed_mappingValue (entries : Option (List Entry)) : (mapping (Made.mappingValue entries)).IsKeyed := by
  have hnil : (Keyed.keys (textual [])).Nodup := List.nodup_nil
  exact nodup_foldl_putEntry hnil _

theorem Node.isKeyed_made (n : Node) : n.made.value.IsKeyed := by
  cases n with
  | scalar t text =>
    rw [made]
    cases t with
    | map => exact List.nodup_nil
    | seq | omap | pairs | set => trivial
    | _ => exact isKeyed_ofText _ _
  | sequence t items =>
    rw [made]
    cases t with
    | map => exact List.nodup_nil
    | seq | omap | pairs | set => trivial
    | _ => exact isKeyed_ofText _ _
  | mapping t es =>
    rw [made]
    cases t with
    | map => exact isKeyed_mappingValue _
    | seq | omap | pairs | set => trivial
    | _ => exact isKeyed_ofText _ _
  | enclosing isMapping =>
    rw [made]
    trivial

theorem isKeyed_of_read (h : read text = .ok d) : d.IsKeyed := by
  unfold read at h
  dsimp only at h
  split at h
  · cases h
  · cases htokens : Node.ofTokens (Token.read text.toList) with
    | error e => rw [htokens] at h; cases h
    | ok found =>
      rw [htokens] at h
      cases found with
      | none => cases h; trivial
      | some n =>
        change n.value = .ok d at h
        unfold Node.value at h
        split at h <;> cases h
        exact n.isKeyed_made

end Yaml

end ApiScaffold
