import ApiScaffold.Json.Printer
import ApiScaffold.Proofs.Text.Digit
import ApiScaffold.Proofs.Text.Lines

namespace ApiScaffold

namespace Text

/-- A text of printable ASCII characters, which is on one line. -/
def IsPrintable (cs : List Char) : Prop := ∀ c ∈ cs, 0x20 ≤ c.toNat ∧ c.toNat < 0x7f

instance (cs : List Char) : Decidable (IsPrintable cs) := List.decidableBAll _ cs

theorem IsPrintable.append {cs ds : List Char} (hc : IsPrintable cs) (hd : IsPrintable ds) : IsPrintable (cs ++ ds) :=
  List.forall_mem_append.2 ⟨hc, hd⟩

theorem IsPrintable.concat {s t : String} (hs : IsPrintable s.toList) (ht : IsPrintable t.toList) :
    IsPrintable (s ++ t).toList := by
  rw [String.toList_append]
  exact hs.append ht

theorem IsPrintable.of_numerals {cs : List Char} (h : cs ⊆ numerals) : IsPrintable cs := by
  have hall : IsPrintable numerals := by decide
  exact fun c hc => hall c (h hc)

theorem isBlank_printable {c : Char} (hl : 0x20 ≤ c.toNat) (hu : c.toNat < 0x7f) (h : isBlank c = true) :
    c = ' ' := by
  obtain ⟨r, hr, hrl, hru⟩ := (isBlank_iff c).1 h
  have hapart : ∀ r ∈ blankRuns, r.2 = 0x20 ∨ r.2 < 0x20 ∨ 0x7f ≤ r.1 := by decide
  have hcode := hapart r hr
  exact Char.toNat_inj.1 (show c.toNat = 32 by omega)

theorem IsPrintable.isPhrase {cs : List Char} (h : IsPrintable cs) : IsPhrase cs :=
  fun c hc => isBlank_printable (h c hc).1 (h c hc).2

theorem IsPrintable.intercalate {sep : String} (hsep : IsPrintable sep.toList) {ss : List String}
    (h : ∀ s ∈ ss, IsPrintable s.toList) : IsPrintable (sep.intercalate ss).toList := by
  intro c hc
  rcases mem_intercalate hc with hc | ⟨s, hs, hc⟩
  · exact hsep c hc
  · exact h s hs c hc

end Text

open Text

namespace Json

theorem unitEscape_isPrintable (n : Nat) : IsPrintable (unitEscape n) := by
  have hopen : IsPrintable ['\\', 'u'] := by decide
  exact hopen.append (.of_numerals (hex_numerals 4 n))

theorem escape_isPrintable (c : Char) : IsPrintable (escape c) := by
  unfold escape
  -- the characters with an escape of their own
  iterate 7
    split
    · decide
  split
  next h => exact List.forall_mem_singleton.2 h
  next =>
    intro d hd
    obtain ⟨u, -, hu⟩ := List.mem_flatMap.1 hd
    exact unitEscape_isPrintable u d hu

theorem quote_isPrintable (s : String) : IsPrintable (quote s).toList := by
  have hmark : IsPrintable ['"'] := by decide
  have htext : IsPrintable (s.toList.flatMap escape) := by
    intro c hc
    obtain ⟨d, -, hd⟩ := List.mem_flatMap.1 hc
    exact escape_isPrintable d c hd
  rw [quote, String.toList_ofList]
  exact (hmark.append htext).append hmark

theorem quoteCodes_isPrintable (codes : List Nat) : IsPrintable (quoteCodes codes).toList := by
  have hmark : IsPrintable ['"'] := by decide
  have hcodes : IsPrintable (codes.flatMap fun n => if isHalf n then unitEscape n else escape (Char.ofNat n)) := by
    intro c hc
    obtain ⟨n, -, hn⟩ := List.mem_flatMap.1 hc
    split at hn
    · exact unitEscape_isPrintable n c hn
    · exact escape_isPrintable (Char.ofNat n) c hn
  rw [quoteCodes, String.toList_ofList]
  exact (hmark.append hcodes).append hmark

theorem quote_isPhrase (s : String) : IsPhrase (quote s).toList := (quote_isPrintable s).isPhrase

end Json

namespace Binary64

variable {ds : List Char}

theorem exponentText_numerals (e : Int) : exponentText e ⊆ numerals := by
  have hd := digitsOf_numerals e.natAbs
  refine List.cons_subset.2 ⟨by split <;> decide, ?_⟩
  split
  · exact List.cons_subset.2 ⟨by decide, hd⟩
  · exact hd

theorem layout_numerals (h : ds ⊆ numerals) (p : Int) : layout ds p ⊆ numerals := by
  have hexponent : 'e' :: exponentText (p - 1) ⊆ numerals := List.cons_subset.2 ⟨by decide, exponentText_numerals _⟩
  have hpoint : '.' ∈ numerals := by decide
  have hzero : '0' ∈ numerals := by decide
  unfold layout
  split
  · split
    · exact h
    next d => exact List.cons_subset.2 ⟨h (by simp), hexponent⟩
    next d ds _ =>
      obtain ⟨hd, hds⟩ := List.cons_subset.1 h
      exact List.append_subset.2 ⟨List.cons_subset.2 ⟨hd, List.cons_subset.2 ⟨hpoint, hds⟩⟩, hexponent⟩
  · split
    · exact List.append_subset.2
        ⟨List.cons_subset.2 ⟨hzero, List.cons_subset.2 ⟨hpoint, replicate_numerals _⟩⟩, h⟩
    · split
      · exact List.append_subset.2 ⟨List.append_subset.2 ⟨h, replicate_numerals _⟩, by decide⟩
      · exact List.append_subset.2 ⟨fun c hc => h (List.mem_of_mem_take hc),
          List.cons_subset.2 ⟨hpoint, fun c hc => h (List.mem_of_mem_drop hc)⟩⟩

theorem dropZeros_subset (ds : List Char) (e : Int) : (dropZeros ds e).1 ⊆ ds := by
  fun_induction dropZeros ds e with
  | case1 ds e ih => exact fun c hc => List.mem_cons_of_mem _ (ih hc)
  | case2 ds e => exact List.Subset.refl ds

theorem positiveText_numerals (negative : Bool) (mantissa : Nat) (exponent : Int) :
    positiveText negative mantissa exponent ⊆ numerals := by
  unfold positiveText
  split
  · decide
  · dsimp only
    refine layout_numerals (fun c hc => ?_) _
    exact digitsOf_numerals _ (List.mem_reverse.1 (dropZeros_subset _ _ (List.mem_reverse.1 hc)))

theorem text_numerals (x : Binary64) : x.text.toList ⊆ numerals := by
  have hsigned (negative : Bool) {cs : List Char} (h : cs ⊆ numerals) : (signed negative cs).toList ⊆ numerals := by
    rw [signed, String.toList_ofList]
    split
    · exact List.cons_subset.2 ⟨by decide, h⟩
    · exact h
  cases x with
  | finite s m e => exact hsigned s (positiveText_numerals s m e)
  | infinite s => exact hsigned s (by decide)

end Binary64

theorem Number.text_numerals (n : Number) : n.text.toList ⊆ numerals := by
  cases n with
  | int n => exact intText_numerals n
  | float x => exact x.text_numerals

theorem Number.json_numerals (n : Number) : n.json.toList ⊆ numerals := by
  cases n with
  | int n => exact intText_numerals n
  | float x =>
      cases x with
      | finite s m e => exact Binary64.text_numerals (.finite s m e)
      | infinite s =>
          have hname : (json (.float (.infinite s))).toList ⊆ numerals := by cases s <;> decide
          exact hname

theorem Data.keyJson_isPrintable (d : Data) : IsPrintable d.keyJson.toList := by
  cases d with
  | halved codes => exact Json.quoteCodes_isPrintable codes
  | _ => exact Json.quote_isPrintable _

mutual

theorem Data.json_isPrintable : (d : Data) → IsPrintable d.json.toList
  | .null => by decide
  | .bool b => by cases b <;> decide
  | .number n => .of_numerals n.json_numerals
  | .nan => by decide
  | .str s => Json.quote_isPrintable s
  | .halved codes => Json.quoteCodes_isPrintable codes
  | .list items =>
      ((show IsPrintable "[".toList by decide).concat
        (.intercalate (by decide) (Data.jsons_isPrintable items))).concat (by decide)
  | .mapping entries =>
      ((show IsPrintable "\x7b".toList by decide).concat
        (.intercalate (by decide) (Data.entryJsons_isPrintable entries))).concat (by decide)
  | .bytes _ | .date _ | .moment _ | .pair _ _ | .set _ | .enclosing _ => Json.quote_isPrintable _

theorem Data.jsons_isPrintable : (ds : List Data) → ∀ s ∈ Data.jsons ds, IsPrintable s.toList
  | [] => nofun
  | d :: ds => List.forall_mem_cons.2 ⟨Data.json_isPrintable d, Data.jsons_isPrintable ds⟩

theorem Data.entryJsons_isPrintable : (es : List (Data × Data)) → ∀ s ∈ Data.entryJsons es, IsPrintable s.toList
  | [] => nofun
  | (k, v) :: es => List.forall_mem_cons.2
      ⟨((Data.keyJson_isPrintable k).concat (by decide)).concat (Data.json_isPrintable v), Data.entryJsons_isPrintable es⟩

end

theorem Data.json_isPhrase (d : Data) : IsPhrase d.json.toList := d.json_isPrintable.isPhrase

end ApiScaffold
