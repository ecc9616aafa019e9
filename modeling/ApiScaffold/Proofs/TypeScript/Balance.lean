import ApiScaffold.Proofs.TypeScript.Quiet
import ApiScaffold.Proofs.TypeScript.Scope

namespace ApiScaffold

open TypeScript Identifier Text

variable {p : Place} {m n : Nat} {r : Reader} {c : Char} {cs ds : List Char} {s : String}

namespace TypeScript

def isBare (c : Char) : Bool := !isMark c && c != '\x7b' && c != '\x7d'

theorem isBare_part (h : isPart c = true) : isBare c = true :=
  forall_ascii (P := fun c => isPart c = true → isBare c = true) (by decide +kernel) (Feature.part_lt h) h

theorem isSmooth_numeral (h : c ∈ numerals) : isSmooth c = true := by
  have hall : ∀ c ∈ numerals, isSmooth c = true := List.all_eq_true.1 (by decide)
  exact hall c h

theorem next_bare (hp : p.isLiteral = false) (hc : isBare c = true) :
    ∃ q, q.isLiteral = false ∧ Reader.next ⟨p, n⟩ c = ⟨q, n⟩ := by
  simp only [isBare, Bool.and_eq_true, Bool.not_eq_true', bne_iff_ne] at hc
  obtain ⟨⟨hmark, hopen⟩, hclose⟩ := hc
  have hdepth : Reader.next ⟨p, n⟩ c = ⟨p.next c, n⟩ := by
    rw [Reader.next, hp, if_neg Bool.false_ne_true, if_neg hopen, if_neg hclose]
  have hafter : (Place.afterCode c).isLiteral = false := by
    rw [Place.afterCode, if_neg (by rw [hmark]; exact Bool.false_ne_true)]
    split <;> rfl
  refine ⟨p.next c, ?_, hdepth⟩
  cases p with
  | quoted | escaped => cases hp
  | code => exact hafter
  | start =>
      rw [Place.next]
      split
      · rfl
      · exact hafter

theorem after?_bare (hp : p.isLiteral = false) (hcs : ∀ d ∈ cs, isBare d = true) (hc : c ∈ [':', '.', '['])
    (ds : List Char) : Reader.after? ⟨p, n + 1⟩ (cs ++ c :: ds) = Reader.after? ⟨.code, n + 1⟩ ds := by
  induction cs generalizing p with
  | nil =>
      simp only [List.mem_cons, List.not_mem_nil, or_false] at hc
      cases p with
      | quoted | escaped => cases hp
      | code | start => rcases hc with rfl | rfl | rfl <;> rfl
  | cons d cs ih =>
      have hd := hcs d (by simp)
      obtain ⟨q, hq, hnext⟩ := next_bare (n := n + 1) hp hd
      have htop : Reader.atTop ⟨p, n + 1⟩ = false := by simp [Reader.atTop]
      have hclose : (d == '\x7d') = false := by
        refine beq_eq_false_iff_ne.2 fun he => ?_
        rw [he] at hd
        cases hd
      rw [List.cons_append, Reader.after?, htop, hclose, hnext]
      simpa using ih hq fun e he => hcs e (by simp [he])

end TypeScript

namespace Json

theorem deep_unitEscape (u : Nat) : Reader.after? ⟨.quoted '"', n⟩ (unitEscape u) = some ⟨.quoted '"', n⟩ := by
  change Reader.after? ⟨.quoted '"', n⟩ (Text.hex 4 u) = _
  have hhex : AllInert (.ofList (Text.hex 4 u)) := by
    rw [AllInert, String.toList_ofList]
    exact fun c hc => isInert_numeral (hex_numerals 4 u hc)
  have hgoes : Goes ⟨.quoted '"', n⟩ (.ofList (Text.hex 4 u)) ⟨.quoted '"', n⟩ := .inert rfl hhex fun _ => rfl
  rwa [Goes, String.toList_ofList] at hgoes

theorem deep_flatMap {α : Type} {f : α → List Char} (hr : ∀ a, r.after? (f a) = some r) (as : List α) :
    r.after? (as.flatMap f) = some r := by
  induction as with
  | nil => rfl
  | cons a as ih => rw [List.flatMap_cons, Reader.after?_append, hr a, Option.bind_some, ih]

theorem deep_escape (c : Char) : Reader.after? ⟨.quoted '"', n⟩ (escape c) = some ⟨.quoted '"', n⟩ := by
  unfold escape
  split
  next => rfl
  next hquote =>
    split
    next => rfl
    next hslash =>
      -- the other characters with an escape of their own
      iterate 5
        split
        · rfl
      split
      next h =>
        have hbreak : isBreak c = false := by
          refine Bool.eq_false_iff.2 fun hb => ?_
          simp only [isBreak, Bool.or_eq_true, beq_iff_eq] at hb
          rcases hb with rfl | rfl <;> exact absurd h.1 (by decide)
        simp [Reader.after?, Reader.atTop, Reader.next, Place.next, Place.isLiteral, hquote, hslash, hbreak]
      next => exact deep_flatMap deep_unitEscape _

theorem goes_quote (hr : r.place = .start ∨ r.place = .code) (s : String) : Goes r (quote s) ⟨.code, r.depth⟩ := by
  obtain ⟨place, n⟩ := r
  have hopen : Reader.after? ⟨place, n⟩ ['"'] = some ⟨.quoted '"', n⟩ := by
    rcases hr with rfl | rfl <;> simp [Reader.after?, Reader.next, Place.next, Place.afterCode, Place.isLiteral, isMark,
      isPart, isStart]
  have hclose : Reader.after? ⟨.quoted '"', n⟩ ['"'] = some ⟨.code, n⟩ := rfl
  have hlist : (quote s).toList = ['"'] ++ s.toList.flatMap escape ++ ['"'] := String.toList_ofList
  rw [Goes, hlist, Reader.after?_append, Reader.after?_append, hopen, Option.bind_some, deep_flatMap deep_escape,
    Option.bind_some, hclose]

end Json

namespace TypeScript.Goes

variable {ns : List String}

theorem intercalate (h : ∀ n ∈ ns, Goes r n r) (hs : Goes r s r) : Goes r (s.intercalate ns) r := by
  induction ns with
  | nil => exact .last rfl
  | cons n ns ih =>
      have hn := h n (by simp)
      cases ns with
      | nil => rwa [String.intercalate_singleton]
      | cons m ms =>
          rw [String.intercalate_cons_cons]
          exact (hn.append hs).append (ih fun x hx => h x (List.mem_cons_of_mem _ hx))

end TypeScript.Goes

theorem Number.allSmooth_text (x : Number) : AllSmooth x.text := fun _ hc => isSmooth_numeral (x.text_numerals hc)

theorem Sample.goes_json (v : Sample) (n : Nat) : Goes ⟨.code, n⟩ v.json ⟨.code, n⟩ := by
  cases v with
  | text s => exact Json.goes_quote (.inr rfl) s
  | number x => exact .smooth rfl fun _ hc => isSmooth_numeral (x.json_numerals hc)
  | yes | nothing => exact .smooth rfl (.literal (by decide))

theorem Validator.allSmooth_base (l : FieldKind) : AllSmooth (Base.ofKind l).text := by
  cases l <;> exact .literal (by decide)

theorem Rule.goes_compile (r : Rule) (l : FieldKind) (n : Nat) :
    Goes ⟨.code, n⟩ (r.compile (.ofKind l)).text ⟨.code, n⟩ := by
  have hbase := Validator.allSmooth_base l
  have hplain : Goes ⟨.code, n⟩ (Validator.Base.ofKind l).text ⟨.code, n⟩ := .smooth rfl hbase
  unfold compile
  split
  next =>
    split
    next => exact .smooth rfl (hbase.append (.literal (by decide)))
    next key x _ =>
      have hbound (w : String) (hw : AllSmooth w) :
          Goes ⟨.code, n⟩ ((Validator.Base.ofKind l).text ++ w ++ x.text ++ ")") ⟨.code, n⟩ :=
        .smooth rfl (((hbase.append hw).append x.allSmooth_text).append (.literal (by decide)))
      split
      · exact hbound _ (.literal (by decide))
      · exact hbound _ (.literal (by decide))
    next ls _ =>
      have hliterals : ∀ q ∈ ls.map Json.quote, Goes ⟨.code, n⟩ q ⟨.code, n⟩ := by
        intro q hq
        obtain ⟨l, -, rfl⟩ := List.mem_map.1 hq
        exact Json.goes_quote (.inr rfl) l
      have hcomma : Goes ⟨.code, n⟩ ", " ⟨.code, n⟩ := .smooth rfl (.literal (by decide))
      exact ((Goes.smooth rfl (.literal (by decide))).append (.intercalate hliterals hcomma)).append
        (.smooth rfl (.literal (by decide)))
    next => exact hplain
    next => exact hplain
  next => exact hplain

namespace Identifier

variable {k : String}

theorem deep_key (k : String) (ds : List Char) :
    Reader.after? ⟨.start, n + 1⟩ ((key k).toList ++ ':' :: ds) = Reader.after? ⟨.code, n + 1⟩ ds := by
  unfold key
  split
  next h =>
    have hbare : ∀ c ∈ k.toList, isBare c = true := by
      obtain ⟨ps, hps, hk⟩ := toList_of_isValid h
      have hparts : ∀ c ∈ ps, isBare c = true := fun c hc => isBare_part (hps c hc)
      rcases hk with hk | hk
      · rwa [hk]
      · rw [hk, List.forall_mem_append]
        exact ⟨hparts, List.forall_mem_singleton.2 rfl⟩
    exact after?_bare rfl hbare (by simp) ds
  next =>
    rw [Reader.after?_append, Json.goes_quote (.inl rfl) k]
    rfl

theorem deep_member (k : String) (hc : c = ',' ∨ c = ')') (ds : List Char) :
    Reader.after? ⟨.code, n + 1⟩ ((member k).toList ++ c :: ds) = Reader.after? ⟨.code, n + 1⟩ ds := by
  have hstart : Reader.after? ⟨.start, n + 1⟩ (c :: ds) = Reader.after? ⟨.code, n + 1⟩ ds := by
    rcases hc with rfl | rfl <;> rfl
  have hcode : Reader.after? ⟨.code, n + 1⟩ (c :: ds) = Reader.after? ⟨.code, n + 1⟩ ds := by
    rcases hc with rfl | rfl <;> rfl
  unfold member
  split
  next h =>
    obtain ⟨ps, hps, hk⟩ := toList_of_isValid h
    -- Behind a name that ends in a line break the reader is at a start.
    have hparts : Goes ⟨.code, n + 1⟩ (.ofList ('.' :: ps)) ⟨.code, n + 1⟩ := by
      refine .smooth rfl ?_
      rw [AllSmooth, String.toList_ofList]
      exact List.forall_mem_cons.2 ⟨rfl, fun d hd => isSmooth_part (hps d hd)⟩
    rw [Goes, String.toList_ofList] at hparts
    rw [String.toList_append]
    rcases hk with hk | hk <;> rw [hk]
    · change Reader.after? _ (('.' :: ps) ++ c :: ds) = _
      rw [Reader.after?_append, hparts]
      exact hcode
    · have hlist : ".".toList ++ (ps ++ ['\n']) ++ c :: ds = ('.' :: ps) ++ '\n' :: c :: ds := by simp
      rw [hlist, Reader.after?_append, hparts]
      exact hstart
  next =>
    have hopen : Goes ⟨.code, n + 1⟩ "[" ⟨.code, n + 1⟩ := .smooth rfl (.literal (by decide))
    have hclose : Goes ⟨.code, n + 1⟩ "]" ⟨.code, n + 1⟩ := .smooth rfl (.literal (by decide))
    have hquoted : Goes ⟨.code, n + 1⟩ ("[" ++ Json.quote k ++ "]") ⟨.code, n + 1⟩ :=
      (hopen.append (Json.goes_quote (.inr rfl) k)).append hclose
    rw [Reader.after?_append, hquoted]
    exact hcode

end Identifier

def TypeScript.Place.IsWithin (p : Place) : Prop := p = .quoted '\'' ∨ p = .escaped '\''

theorem TypeScript.Place.IsWithin.after? (hp : p.IsWithin) (h : ∀ c ∈ cs, c ≠ '\'' ∧ isBreak c = false) :
    ∃ q, Reader.after? ⟨p, n⟩ cs = some ⟨q, n⟩ ∧ q.IsWithin := by
  induction cs generalizing p with
  | nil => exact ⟨p, rfl, hp⟩
  | cons c cs ih =>
      obtain ⟨hquote, hbreak⟩ := h c (by simp)
      have hnext : (p.next c).IsWithin := by
        rcases hp with rfl | rfl
        · rw [Place.next, beq_eq_false_iff_ne.2 hquote, hbreak]
          split
          · exact .inr rfl
          · exact .inl rfl
        · exact .inl rfl
      have hstep : Reader.after? ⟨p, n⟩ (c :: cs) = Reader.after? ⟨p.next c, n⟩ cs := by
        rcases hp with rfl | rfl <;> rfl
      rw [hstep]
      exact ih hnext fun d hd => h d (by simp [hd])

theorem TypeScript.IsQuotable.goes_slash (h : IsQuotable s) (n : Nat) :
    Goes ⟨.quoted '\'', n⟩ (s ++ "/") ⟨.quoted '\'', n⟩ := by
  obtain ⟨q, hq, hwithin⟩ := Place.IsWithin.after? (n := n) (.inl rfl) h
  rw [Goes, String.toList_append, Reader.after?_append, hq]
  rcases hwithin with rfl | rfl <;> rfl

namespace Mapping

theorem goes_sampleJson (ms : List Mapping) (n : Nat) : Goes ⟨.code, n⟩ (sampleJson ms) ⟨.start, n⟩ := by
  have hcomma : Goes ⟨.code, n + 1⟩ ", " ⟨.code, n + 1⟩ := .smooth rfl (.literal (by decide))
  have hcolon : Goes ⟨.code, n + 1⟩ ": " ⟨.code, n + 1⟩ := .smooth rfl (.literal (by decide))
  have hentries : ∀ e ∈ Data.entryJsons (members ms), Goes ⟨.code, n + 1⟩ e ⟨.code, n + 1⟩ := by
    intro e he
    rw [entryJsons_members] at he
    obtain ⟨m, -, rfl⟩ := List.mem_map.1 he
    exact ((Json.goes_quote (.inr rfl) m.name).append hcolon).append (m.sample.goes_json _)
  have hopen : Goes ⟨.code, n⟩ "\x7b" ⟨.code, n + 1⟩ := .last rfl
  have hclose : Goes ⟨.code, n + 1⟩ "\x7d" ⟨.start, n⟩ := .last rfl
  exact (hopen.append (.intercalate hentries hcomma)).append hclose

end Mapping

end ApiScaffold
