import ApiScaffold.Proofs.Field.Sample
import ApiScaffold.Proofs.Json.OneLine
import ApiScaffold.Proofs.Keyed.Blocks

namespace ApiScaffold

open Json Text

namespace Number

variable {cs : List Char} {n : Number}

def isInfinite : Number → Bool
  | float (.infinite _) => true
  | _ => false

theorem wholeOf_lt {k : Nat} (h : wholeOf cs = .ok k) : k < 10 ^ Failure.digitLimit := by
  unfold wholeOf at h
  split at h
  · cases h
  next hshort =>
    cases h
    exact (digitsValue_lt cs).trans_le (Nat.pow_le_pow_right (by decide) (Nat.not_lt.1 hshort))

theorem isWritable_nearest {s : Bool} {r : Rat} (hfinite : (float (.nearest s r)).isInfinite = false) :
    (float (.nearest s r)).IsWritable := by
  rcases Binary64.nearest_cases s r with ⟨m, e, hnearest, hcanonical⟩ | hnearest
  · rw [hnearest]
    exact hcanonical
  · rw [hnearest] at hfinite
    cases hfinite

theorem read?_isWritable (h : read? cs = .ok (some n)) (hfinite : n.isInfinite = false) : n.IsWritable := by
  unfold read? at h
  dsimp only at h
  split at h
  next ds hcut =>
    split at h
    · cases hwhole : wholeOf ds with
      | error f =>
          rw [hwhole] at h
          cases h
      | ok k =>
          rw [hwhole] at h
          cases h
          have hk := wholeOf_lt hwhole
          have hsign (b : Bool) : (if b = true then -(k : Int) else k).natAbs = k := by cases b <;> simp
          refine isLong_eq_false_iff.2 ?_
          rwa [hsign]
    · cases h
  next ds fs hcut =>
    split at h
    · cases h
      exact isWritable_nearest hfinite
    · cases h

end Number

namespace Sample

def isInfinite : Sample → Bool
  | number n => n.isInfinite
  | _ => false

end Sample

namespace Mapping

variable {f : Field} {m : Mapping} {ms : List Mapping}

theorem sampleFor_number {r : Rule} {k : FieldKind} {name : String} {n : Number} (h : sampleFor r k name = .ok (.number n)) :
    n = .int 123 ∨ ∃ key, r.kind = .bound key n := by
  have hkind (h : Sample.ofKind k name = .number n) : n = .int 123 := by
    cases k <;> cases h
    rfl
  unfold sampleFor at h
  split at h
  · split at h
    next => cases h
    next => cases h
    next key limit hr =>
      cases k with
      | string =>
          unfold Sample.ofKind Sample.fit at h
          dsimp only at h
          cases hfit : Sample.fitText ("sample_" ++ name) key limit <;> rw [hfit] at h <;> cases h
      | number =>
          have hfit : Sample.fitNumber (.int 123) key limit = n := by
            cases h
            rfl
          have hends : n = .int 123 ∨ n = limit := by
            rw [← hfit, Sample.fitNumber]
            split <;> split <;> simp
          exact hends.imp_right fun hn => ⟨key, by rw [hr, hn]⟩
      | boolean | unknown => cases h
    · exact .inl (hkind (Except.ok.inj h))
    · exact .inl (hkind (Except.ok.inj h))
  · exact .inl (hkind (Except.ok.inj h))

theorem data_isScalar (h : ofField f = .ok m) (hfinite : m.sample.isInfinite = false) : m.sample.data.IsScalar := by
  obtain ⟨hrule, hsample, -⟩ := ofField_ok h
  cases hs : m.sample with
  | text s => exact .str s
  | yes => exact .bool true
  | nothing => exact .null
  | number n =>
      rw [hs] at hfinite hsample
      refine .number ?_
      rcases sampleFor_number hsample with rfl | ⟨key, hkind⟩
      · have hlimit : 10 ^ 3 ≤ 10 ^ Failure.digitLimit := Nat.pow_le_pow_right (by decide) (by decide)
        exact Number.isLong_eq_false_iff.2 (Nat.lt_of_lt_of_le (by decide) hlimit)
      · obtain ⟨cs, hread⟩ := Rule.read_bound hrule hkind
        exact Number.read?_isWritable hread hfinite

def pairs (ms : List Mapping) : List (String × Data) := ms.map fun m => (m.name, m.sample.data)

def payloadEntries (ms : List Mapping) : List (Data × Data) := (payload ms).map fun p => (.str p.1, p.2.data)

theorem members_eq (ms : List Mapping) : Data.mapping (members ms) = object (pairs ms) := by
  rw [object, pairs, List.map_map]
  rfl

theorem sampleJson_eq (ms : List Mapping) :
    sampleJson ms = "\x7b" ++ ", ".intercalate ((pairs ms).map memberText) ++ "\x7d" := by
  rw [sampleJson, members_eq, object, Data.json, entryJsons_map]

theorem payloadEntries_eq (ms : List Mapping) : Data.mapping (payloadEntries ms) = object (Keyed.ofPairs (pairs ms)) := by
  have hpairs : pairs ms = (ms.map fun m => (m.name, m.sample)).map (Prod.map id Sample.data) := by
    rw [List.map_map]
    rfl
  rw [object, hpairs, Keyed.ofPairs_map, List.map_map]
  rfl

theorem putEntry_str (k : String) (v : Data) (es : List (String × Data)) :
    Data.putEntry (.str k) v (es.map fun p => (.str p.1, p.2)) = (Keyed.put k v es).map fun p => (.str p.1, p.2) := by
  induction es with
  | nil => rfl
  | cons p es ih =>
      have hsame : Data.isSameKey (.str p.1) (.str k) = (p.1 == k) := rfl
      rw [List.map_cons, Data.putEntry, Keyed.put, hsame]
      by_cases hk : p.1 = k
      · simp [hk]
      · simp [hk, ih]

theorem entriesOf_str (es : List (String × Data)) :
    Data.entriesOf (es.map fun p => (.str p.1, p.2)) = (Keyed.ofPairs es).map fun p => (.str p.1, p.2) := by
  have hfold (ts : List (String × Data)) :
      (es.map fun p => (Data.str p.1, p.2)).foldl (fun t e => Data.putEntry e.1 e.2 t) (ts.map fun p => (.str p.1, p.2)) =
        (es.foldl (fun t p => Keyed.put p.1 p.2 t) ts).map fun p => (.str p.1, p.2) := by
    induction es generalizing ts with
    | nil => rfl
    | cons p es ih => rw [List.map_cons, List.foldl_cons, List.foldl_cons, putEntry_str, ih]
  exact hfold []

theorem keys_pairs (ms : List Mapping) : Keyed.keys (pairs ms) = ms.map Mapping.name := by
  rw [Keyed.keys, pairs, List.map_map]
  rfl

theorem entriesOf_members (ms : List Mapping) : Data.entriesOf (members ms) = payloadEntries ms := by
  have hmembers : members ms = (pairs ms).map fun p => (.str p.1, p.2) := Data.mapping.inj (members_eq ms)
  have hpayload : payloadEntries ms = (Keyed.ofPairs (pairs ms)).map fun p => (.str p.1, p.2) :=
    Data.mapping.inj (payloadEntries_eq ms)
  rw [hmembers, hpayload, entriesOf_str]

theorem object_inj {es fs : List (String × Data)} (h : object es = object fs) : es = fs := by
  have hpair : Function.Injective fun p : String × Data => ((Data.str p.1, p.2) : Data × Data) := by
    rintro ⟨k, d⟩ ⟨l, e⟩ hpairs
    cases hpairs
    rfl
  exact List.map_injective_iff.2 hpair (Data.mapping.inj h)

/-- The text of the members is that of the payload just when no name is repeated: both are read again, and then the
members have the names of the payload. -/
theorem sampleJson_eq_payload_iff (h : ∀ p ∈ pairs ms, p.2.IsScalar) :
    sampleJson ms = (Data.mapping (payloadEntries ms)).json ↔ (ms.map Mapping.name).Nodup := by
  rw [sampleJson, members_eq, payloadEntries_eq, ← keys_pairs]
  constructor
  · intro htext
    have hmembers := read_object h
    rw [htext, read_object fun p hp => h p (Keyed.mem_of_mem_ofPairs hp)] at hmembers
    rw [← object_inj (Except.ok.inj hmembers)]
    exact Keyed.nodup_keys_ofPairs (pairs ms)
  · intro hnodup
    rw [Keyed.ofPairs_of_nodup hnodup]

/-- The sample request is one line of ASCII. By the standard of JSON it is an object with a member for every field, in
their order and with its sample; as a mapping it is the payload, and it is the text of the payload just when no name is
repeated. -/
theorem sampleJson_faithful (h : ∀ m ∈ ms, ∃ f, ofField f = .ok m) (hfinite : ∀ m ∈ ms, m.sample.isInfinite = false) :
    IsPrintable (sampleJson ms).toList ∧ readStrict (sampleJson ms) = some (.mapping (members ms)) ∧
      Data.entriesOf (members ms) = payloadEntries ms ∧
      (sampleJson ms = (Data.mapping (payloadEntries ms)).json ↔ (ms.map Mapping.name).Nodup) := by
  have hscalar : ∀ p ∈ pairs ms, p.2.IsScalar := by
    intro p hp
    obtain ⟨m, hm, rfl⟩ := List.mem_map.1 hp
    obtain ⟨f, hf⟩ := h m hm
    exact data_isScalar hf (hfinite m hm)
  refine ⟨Data.json_isPrintable _, ?_, entriesOf_members ms, sampleJson_eq_payload_iff hscalar⟩
  rw [sampleJson, members_eq]
  exact readStrict_object hscalar

/-- A name that is given twice, a fraction, and texts beyond ASCII. -/
theorem sampleJson_faithful_twice : ∃ price word again,
    ofField ⟨"price", "number", "min=200.5"⟩ = .ok price ∧ ofField ⟨"naïve \"𝔘\"", "string", "enum=é|b"⟩ = .ok word ∧
      ofField ⟨"price", "number", "max=-7"⟩ = .ok again ∧
      let ms := [price, word, again]
      IsPrintable (sampleJson ms).toList ∧ readStrict (sampleJson ms) = some (.mapping (members ms)) ∧
        Data.entriesOf (members ms) = payloadEntries ms ∧
        (sampleJson ms = (Data.mapping (payloadEntries ms)).json ↔ (ms.map Mapping.name).Nodup) := by
  obtain ⟨price, hprice, hnumber⟩ : ∃ m, ofField ⟨"price", "number", "min=200.5"⟩ = .ok m ∧ m.sample.isInfinite = false :=
    ⟨_, rfl, by decide +kernel⟩
  obtain ⟨word, hword, htext⟩ : ∃ m, ofField ⟨"naïve \"𝔘\"", "string", "enum=é|b"⟩ = .ok m ∧
      m.sample.isInfinite = false := ⟨_, rfl, by decide +kernel⟩
  obtain ⟨again, hagain, hlast⟩ : ∃ m, ofField ⟨"price", "number", "max=-7"⟩ = .ok m ∧ m.sample.isInfinite = false :=
    ⟨_, rfl, by decide +kernel⟩
  refine ⟨price, word, again, hprice, hword, hagain, sampleJson_faithful ?_ ?_⟩
  · simp only [List.forall_mem_cons]
    exact ⟨⟨_, hprice⟩, ⟨_, hword⟩, ⟨_, hagain⟩, List.forall_mem_nil _⟩
  · simp only [List.forall_mem_cons]
    exact ⟨hnumber, htext, hlast, List.forall_mem_nil _⟩

end Mapping

end ApiScaffold
