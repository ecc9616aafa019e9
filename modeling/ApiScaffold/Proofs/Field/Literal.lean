import ApiScaffold.Proofs.Decimal.Overflow
import ApiScaffold.Proofs.Field.Payload
import ApiScaffold.Proofs.Text.Trim

namespace ApiScaffold

open Text Json
open Binary64 (IsLed Numeral)

namespace Number

variable {cs ds fs : List Char} {n : Number} {negative : Bool} {k : Nat}

inductive IsFraction : List Char → Prop
  | none : IsFraction []
  | point {ds : List Char} (hne : ds ≠ []) (h : IsRow ds) : IsFraction ('.' :: ds)

inductive IsExponent : List Char → Prop
  | none : IsExponent []
  | power {sign : Char} {ds : List Char} (hsign : sign = '+' ∨ sign = '-') (hne : ds ≠ []) (h : IsRow ds) :
      IsExponent ('e' :: sign :: ds)

/-- A decimal literal of TypeScript behind an optional minus sign. No zero leads its digits. -/
inductive IsLiteral : List Char → Prop
  | mk (negative : Bool) {ds fs es : List Char} (hds : ds = ['0'] ∨ IsLed ds) (hfs : IsFraction fs)
      (hes : IsExponent es) : IsLiteral (signed negative (ds ++ fs ++ es))

/-- A payload that is rounded to infinity. -/
inductive Overflows : List Char → Prop
  | mk (negative : Bool) {ds fs : List Char} (hds : IsDigits ds) (hfs : IsDigits fs)
      (h : Binary64.overflow ≤ (digitsValue (ds ++ fs) : Rat) / 10 ^ fs.length) :
      Overflows (signed negative (ds ++ '.' :: fs))

theorem digitsOf_led (k : Nat) : digitsOf k = ['0'] ∨ IsLed (digitsOf k) := by
  rcases Nat.eq_zero_or_pos k with rfl | hk
  · exact .inl rfl
  · exact .inr (Binary64.digitsOf_isLed hk)

theorem isLiteral_whole (negative : Bool) (h : ds = ['0'] ∨ IsLed ds) : IsLiteral (signed negative ds) := by
  have hliteral := IsLiteral.mk negative h .none .none
  rwa [List.append_nil, List.append_nil] at hliteral

theorem intText_eq (n : Int) : (intText n).toList = signed (decide (n < 0)) (digitsOf n.natAbs) := by
  rw [intText, String.toList_ofList, signed]
  simp

theorem intText_signed (negative : Bool) (k : Nat) :
    (intText (if negative then -(k : Int) else k)).toList = signed (negative && decide (0 < k)) (digitsOf k) := by
  rw [intText_eq]
  cases negative with
  | true => simp
  | false => simp [signed]

theorem isLiteral_numeral {x : Numeral} {r : Rat} (h : x.Spells cs r) (negative : Bool) :
    IsLiteral (signed negative cs) := by
  have hfraction : IsFraction (if x.fraction = [] then [] else '.' :: x.fraction) := by
    split
    · exact .none
    next hne => exact .point hne h.fraction
  have hexponent : IsExponent (x.exponent.elim [] fun e => 'e' :: Binary64.exponentText e) := by
    cases x.exponent with
    | none => exact .none
    | some e =>
        obtain ⟨d, ds, htext, hrow, -⟩ := exponentText_eq e
        rw [Option.elim_some, htext]
        exact .power (by split <;> simp) (List.cons_ne_nil d ds) hrow
  rw [h.text_eq]
  exact .mk negative h.whole hfraction hexponent

theorem isLiteral_of_isWritable (h : n.IsWritable) : IsLiteral n.text.toList := by
  match n, h with
  | .int n, _ =>
      rw [text, intText_eq]
      exact isLiteral_whole _ (digitsOf_led n.natAbs)
  | .float (.finite s m e), hcanonical =>
      obtain ⟨x, r, hspells, -⟩ := Binary64.exists_numeral hcanonical s
      rw [text, Binary64.text, Binary64.signed, String.toList_ofList]
      exact isLiteral_numeral hspells s

theorem IsLiteral.exists_digit (h : IsLiteral cs) :
    ∃ negative d es, cs = signed negative (d :: es) ∧ d.isDigit = true := by
  obtain ⟨negative, hds, -, -⟩ := h
  rcases hds with rfl | hled
  · exact ⟨negative, '0', _, rfl, rfl⟩
  · obtain ⟨d, es, rfl, -⟩ := hled.lead
    exact ⟨negative, d, _, rfl, hled.isRow d List.mem_cons_self⟩

theorem not_isLiteral_infinite (s : Bool) : ¬IsLiteral (text (.float (.infinite s))).toList := by
  intro h
  obtain ⟨negative, d, es, htext, hd⟩ := h.exists_digit
  rw [text, Binary64.text, Binary64.signed, String.toList_ofList] at htext
  cases s <;> cases negative <;> cases htext <;> cases hd

/-- A bound is printed as a literal unless it is infinite. -/
theorem text_isLiteral_iff (h : read? cs = .ok (some n)) : IsLiteral n.text.toList ↔ n.isInfinite = false := by
  refine ⟨fun hliteral => ?_, fun hfinite => isLiteral_of_isWritable (read?_isWritable h hfinite)⟩
  match n with
  | .int _ | .float (.finite _ _ _) => rfl
  | .float (.infinite s) => exact absurd hliteral (not_isLiteral_infinite s)

theorem json_eq_text_iff : n.json = n.text ↔ n.isInfinite = false := by
  match n with
  | .int _ | .float (.finite _ _ _) => exact iff_of_true rfl rfl
  | .float (.infinite s) => exact iff_of_false (by cases s <;> decide) nofun

theorem readScalar_text (h : read? cs = .ok (some n)) (hfinite : n.isInfinite = false) :
    readScalar n.text.toList = .ok (.number n, []) := by
  have hend : EndsNumber [] := ⟨rfl, nofun, nofun, nofun⟩
  have hread := readScalar_number (read?_isWritable h hfinite) hend
  rwa [List.append_nil, json_eq_text_iff.2 hfinite] at hread

theorem isInfinite_nearest_iff {s : Bool} {r : Rat} :
    (float (.nearest s r)).isInfinite = true ↔ Binary64.overflow ≤ r := by
  have hinfinite : (float (.nearest s r)).isInfinite = true ↔ Binary64.nearest s r = .infinite s := by
    rcases Binary64.nearest_cases s r with ⟨m, e, hnearest, -⟩ | hnearest <;> rw [hnearest] <;> simp [isInfinite]
  rw [hinfinite, Binary64.nearest_eq_infinite_iff]
  simp

theorem isInfinite_iff_overflows (h : read? cs = .ok (some n)) : n.isInfinite = true ↔ Overflows cs := by
  constructor
  · intro hinfinite
    obtain ⟨hdenotes, -⟩ := read?_eq_some_iff.1 h
    cases hdenotes with
    | whole => cases hinfinite
    | fraction negative hds hfs => exact .mk negative hds hfs (isInfinite_nearest_iff.1 hinfinite)
  · rintro ⟨negative, hds, hfs, hoverflow⟩
    rw [read?_fraction negative hds hfs] at h
    cases h
    exact isInfinite_nearest_iff.2 hoverflow

theorem text_whole (h : read? (signed negative ds) = .ok (some n)) (hds : IsDigits ds) :
    ∃ es, n.text.toList = signed (negative && decide (0 < digitsValue ds)) es ∧ (es = ['0'] ∨ IsLed es) ∧
      digitsValue es = digitsValue ds := by
  refine ⟨digitsOf (digitsValue ds), ?_, digitsOf_led _, digitsValue_digitsOf _⟩
  rw [read?_whole negative hds] at h
  cases hwhole : wholeOf ds with
  | error e =>
      rw [hwhole] at h
      cases h
  | ok k =>
      rw [hwhole] at h
      cases h
      rw [wholeOf] at hwhole
      split at hwhole
      · cases hwhole
      · cases hwhole
        exact intText_signed negative _

end Number

namespace Rule

variable {token : String} {r : Rule} {key : BoundKey} {limit : Number} {b : Validator.Base}

theorem compile_bound (hr : r.kind = .bound key limit) (hb : b = .string ∨ b = .number) :
    (r.compile b).text = b.text ++ (if key.isLower then ".min(" else ".max(") ++ limit.text ++ ")" := by
  have happlies : r.appliesTo b = true := by
    rw [appliesTo, hr]
    rcases hb with rfl | rfl <;> rfl
  rw [compile, happlies, hr]
  cases key <;> rfl

theorem digitsValue_one_zeros (n : Nat) : digitsValue ('1' :: List.replicate n '0' ++ ['0']) = 10 ^ n * 10 := by
  have hone : IsRow ['1'] := List.forall_mem_singleton.2 rfl
  have hzeros : '1' :: List.replicate n '0' ++ ['0'] = ['1'] ++ List.replicate (n + 1) '0' := by
    rw [List.replicate_succ']
    rfl
  have hvalue : digitsValue ['1'] = 1 := by decide +kernel
  rw [hzeros, hone.digitsValue_append (.replicate _), digitsValue_replicate, hvalue, List.length_replicate, Nat.one_mul,
    Nat.add_zero, Nat.pow_succ]

theorem read?_huge {n : Nat} (h : 309 ≤ n) :
    Number.read? ('1' :: List.replicate n '0' ++ ['.', '0']) = .ok (some (.float (.infinite false))) := by
  have hds : Number.IsDigits ('1' :: List.replicate n '0') :=
    ⟨List.cons_ne_nil _ _, List.forall_mem_cons.2 ⟨by decide, fun c hc => List.eq_of_mem_replicate hc ▸ by decide⟩⟩
  have hfs : Number.IsDigits ['0'] := ⟨List.cons_ne_nil _ _, List.forall_mem_singleton.2 (by decide)⟩
  have hvalue : ((10 ^ n * 10 : Nat) : Rat) / 10 ^ ['0'].length = 10 ^ n := by
    rw [Nat.cast_mul, Nat.cast_pow]
    exact mul_div_cancel_right₀ _ (by norm_num)
  have hread := Number.read?_fraction false hds hfs
  rw [digitsValue_one_zeros, hvalue, Binary64.nearest_eq_infinite_iff.2 ⟨rfl, Binary64.overflow_le_ten h⟩] at hread
  exact hread

theorem read_huge {n : Nat} (h : 309 ≤ n) :
    read ("min=1" ++ String.ofList (List.replicate n '0') ++ ".0") =
      .ok ⟨"min=1" ++ String.ofList (List.replicate n '0') ++ ".0", .bound .min (.float (.infinite false))⟩ := by
  have hpayload : IsWord ('1' :: List.replicate n '0' ++ ['.', '0']) := by
    have hwhole : IsWord ('1' :: List.replicate n '0') :=
      List.forall_mem_cons.2 ⟨by decide, IsWord.of_numerals (replicate_numerals n)⟩
    exact hwhole.append (by decide)
  have htext : ("min=1" ++ String.ofList (List.replicate n '0') ++ ".0").toList =
      BoundKey.min.token ++ '=' :: ('1' :: List.replicate n '0' ++ ['.', '0']) := by
    simp only [String.toList_append, String.toList_ofList, List.append_assoc]
    rfl
  have htrimmed : IsTrimmed (BoundKey.min.token ++ '=' :: ('1' :: List.replicate n '0' ++ ['.', '0'])) := by
    have hkey : IsWord BoundKey.min.token := by decide
    exact isTrimmed_of_forall (hkey.append (List.forall_mem_cons.2 ⟨by decide, hpayload⟩))
  refine read_eq_ok_iff.2 ⟨?_, ?_⟩
  · rw [htext, htrimmed.strip_eq]
    exact .bound rfl (by rw [(isTrimmed_of_forall hpayload).strip_eq, read?_huge h])
  · rw [Text.trim, htext, htrimmed.strip_eq, ← htext, String.ofList_toList]

end Rule

namespace Mapping

variable {f : Field} {m : Mapping} {key : BoundKey} {limit : Number}

theorem sampleJson_append (before after : List Mapping) (m : Mapping) :
    sampleJson (before ++ m :: after) = "\x7b" ++ ", ".intercalate ((pairs before).map memberText ++
      (quote m.name ++ ": " ++ m.sample.json) :: (pairs after).map memberText) ++ "\x7d" := by
  have htexts : (pairs (before ++ m :: after)).map memberText = (pairs before).map memberText ++
      (quote m.name ++ ": " ++ m.sample.json) :: (pairs after).map memberText := by
    rw [pairs, List.map_append, List.map_cons, List.map_append, List.map_cons]
    rfl
  rw [sampleJson_eq, htexts]

theorem ofField_bounded {r : Rule} (h : Rule.read f.rule = .ok r) (hr : r.kind = .bound key limit)
    (hf : f.typeName = "number") : ofField f = .ok ⟨f, r, .number, r.compile .number,
      .number (if key.admits limit (.int 123) then .int 123 else limit)⟩ := by
  have hkind : kindFor r .number = .number := by rw [kindFor, hr]
  rw [ofField_eq h, hf, show FieldKind.ofToken "number" = .number from rfl, sampleFor, appliesTo_bound hr (.inr rfl),
    hr, hkind, ← Sample.fitNumber_eq]
  rfl

theorem sample_moved {r : Rule} (h : ofField f = .ok m) (hread : Rule.read f.rule = .ok r)
    (hr : r.kind = .bound key limit) (hf : f.typeName = "number") (hmoved : m.sample ≠ .ofKind .number f.name) :
    m.sample = .number limit := by
  obtain rfl := Except.ok.inj ((ofField_bounded hread hr hf).symm.trans h)
  refine congrArg Sample.number (if_neg fun hadmits => hmoved ?_)
  rw [if_pos hadmits]
  rfl

/-- A bound is printed between the parentheses of its validator. It is a numeric literal just when the payload does not
overflow, and then it is read as the bound; for a whole payload it has the payload's value. A number sample that is
moved onto the bound is the same literal in the sample request, again unless the payload overflows. -/
theorem bound_printed {token : String} {r : Rule} (h : Rule.read token = .ok r) (hr : r.kind = .bound key limit) :
    ∃ payload, Text.strip token.toList = key.token ++ '=' :: payload ∧
      (∀ b, b = .string ∨ b = .number →
        (r.compile b).text = b.text ++ (if key.isLower then ".min(" else ".max(") ++ limit.text ++ ")") ∧
      (Number.IsLiteral limit.text.toList ↔ ¬Number.Overflows (Text.strip payload)) ∧
      (¬Number.Overflows (Text.strip payload) → readScalar limit.text.toList = .ok (.number limit, [])) ∧
      (∀ negative ds, Number.IsDigits ds → Text.strip payload = Number.signed negative ds →
        ∃ es, limit.text.toList = Number.signed (negative && decide (0 < digitsValue ds)) es ∧
          (es = ['0'] ∨ IsLed es) ∧ digitsValue es = digitsValue ds) ∧
      ∀ f m before after, f.rule = token → f.typeName = "number" → ofField f = .ok m →
        m.sample ≠ .ofKind .number f.name →
        ∃ shown, sampleJson (before ++ m :: after) = "\x7b" ++ ", ".intercalate ((pairs before).map memberText ++
          (quote f.name ++ ": " ++ shown) :: (pairs after).map memberText) ++ "\x7d" ∧
          (shown = limit.text ↔ ¬Number.Overflows (Text.strip payload)) := by
  have hmeans := (Rule.read_eq_ok_iff.1 h).1
  rw [hr] at hmeans
  obtain ⟨payload, hpayload, hread⟩ : ∃ payload, Text.strip token.toList = key.token ++ '=' :: payload ∧
      Number.read? (Text.strip payload) = .ok (some limit) := by
    cases hmeans with
    | bound h hread => exact ⟨_, h, hread⟩
  have hfinite : limit.isInfinite = false ↔ ¬Number.Overflows (Text.strip payload) := by
    rw [← Number.isInfinite_iff_overflows hread, Bool.not_eq_true]
  refine ⟨payload, hpayload, fun b hb => Rule.compile_bound hr hb, ?_,
    fun hlimit => Number.readScalar_text hread (hfinite.2 hlimit), fun negative ds hds hwhole => ?_,
    fun f m before after hf htype hm hmoved => ⟨limit.json, ?_, ?_⟩⟩
  · rw [← hfinite, Number.text_isLiteral_iff hread]
  · rw [hwhole] at hread
    exact Number.text_whole hread hds
  · rw [sampleJson_append, sample_moved hm (hf ▸ h) hr htype hmoved, name, (ofField_ok hm).2.2.1]
    rfl
  · rw [← hfinite, Number.json_eq_text_iff]

/-- Blanks around the rule and around its number, and zeros in front of it. -/
theorem bound_printed_price :
    let token := " min= 0200 "
    let r : Rule := ⟨"min= 0200", .bound .min (.int 200)⟩
    let m : Mapping := ⟨⟨"price", "number", token⟩, r, .number, .atLeast .number (.int 200), .number (.int 200)⟩
    Rule.read token = .ok r ∧ ofField m.field = .ok m ∧ m.sample ≠ .ofKind .number "price" ∧
      ∃ payload, Text.strip token.toList = BoundKey.min.token ++ '=' :: payload ∧
        (r.compile .number).text = Validator.Base.number.text ++ ".min(" ++ Number.text (.int 200) ++ ")" ∧
        (Number.IsLiteral (Number.text (.int 200)).toList ↔ ¬Number.Overflows (Text.strip payload)) ∧
        (¬Number.Overflows (Text.strip payload) →
          readScalar (Number.text (.int 200)).toList = .ok (.number (.int 200), [])) ∧
        (∀ negative ds, Number.IsDigits ds → Text.strip payload = Number.signed negative ds →
          ∃ es, (Number.text (.int 200)).toList = Number.signed (negative && decide (0 < digitsValue ds)) es ∧
            (es = ['0'] ∨ IsLed es) ∧ digitsValue es = digitsValue ds) ∧
        ∃ shown, sampleJson [m] = "\x7b" ++ ", ".intercalate [quote "price" ++ ": " ++ shown] ++ "\x7d" ∧
          (shown = Number.text (.int 200) ↔ ¬Number.Overflows (Text.strip payload)) := by
  intro token r m
  have hread : Rule.read token = .ok r := by decide +kernel
  have hm : ofField m.field = .ok m := by decide +kernel
  have hmoved : m.sample ≠ .ofKind .number "price" := by decide
  obtain ⟨payload, hpayload, hcompile, hliteral, hback, hwhole, hsample⟩ := bound_printed hread rfl
  exact ⟨hread, hm, hmoved, payload, hpayload, hcompile .number (.inr rfl), hliteral, hback, hwhole,
    hsample m.field m [] [] rfl rfl hm hmoved⟩

/-- A bound beyond all binary64 numbers is printed as a word that is no literal, and as another word in the sample. -/
theorem infinite_bound_printed :
    ∃ m, ofField ⟨"price", "number", "min=1" ++ String.ofList (List.replicate 309 '0') ++ ".0"⟩ = .ok m ∧
      m.validator.text = "z.number().min(inf)" ∧ ¬Number.IsLiteral "inf".toList ∧
      sampleJson [m] = "\x7b\"price\": Infinity\x7d" := by
  have hread := Rule.read_huge (n := 309) (Nat.le_refl 309)
  -- from here on the digits are not looked at
  generalize "min=1" ++ String.ofList (List.replicate 309 '0') ++ ".0" = token at hread ⊢
  have hm := ofField_bounded (f := ⟨"price", "number", token⟩) hread rfl rfl
  have hsample : (Data.mapping [(.str "price", .number (.float (.infinite false)))]).json =
      "\x7b\"price\": Infinity\x7d" := by decide +kernel
  exact ⟨_, hm, rfl, Number.not_isLiteral_infinite false, hsample⟩

end Mapping

end ApiScaffold
