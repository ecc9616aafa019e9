import ApiScaffold.Field.Rule
import ApiScaffold.Proofs.Decimal.Reading

namespace ApiScaffold

namespace BoundKey

variable {key : List Char} {k : BoundKey}

def token : BoundKey → List Char
  | minLength => "minlength".toList
  | maxLength => "maxlength".toList
  | min => "min".toList
  | max => "max".toList

theorem ofToken?_eq_some_iff : ofToken? key = some k ↔ key = k.token := by
  constructor
  · intro h
    unfold ofToken? at h
    split_ifs at h with hminLength hmaxLength hmin hmax
    · cases h
      exact hminLength
    · cases h
      exact hmaxLength
    · cases h
      exact hmin
    · cases h
      exact hmax
  · rintro rfl
    cases k <;> rfl

theorem noMark_token (k : BoundKey) : '=' ∉ k.token := by cases k <;> decide

theorem token_ne_enum (k : BoundKey) : k.token ≠ "enum".toList := by cases k <;> decide

end BoundKey

namespace Rule

variable {cs key payload : List Char} {e : Failure} {kind : Kind} {token : String} {r : Rule}

/-- What a rule means: the text `cs` is of the kind, and all that makes a rule unknown. -/
inductive Means (cs : List Char) : Kind → Prop
  | absent (h : cs = []) : Means cs .absent
  | email (h : cs = "email".toList) : Means cs .email
  | bound {payload : List Char} {k : BoundKey} {limit : Number} (h : cs = k.token ++ '=' :: payload)
      (hread : Number.read? (Text.strip payload) = .ok (some limit)) : Means cs (.bound k limit)
  | oneOf {payload : List Char} {ls : List String} (h : cs = "enum".toList ++ '=' :: payload)
      (hls : literals payload = ls) (hne : ls ≠ []) : Means cs (.oneOf ls)
  | noMark (h : '=' ∉ cs) (hempty : cs ≠ []) (hemail : cs ≠ "email".toList) : Means cs .unknown
  | noLiteral {payload : List Char} (h : cs = "enum".toList ++ '=' :: payload) (hls : literals payload = []) :
      Means cs .unknown
  | noNumber {key payload : List Char} (h : cs = key ++ '=' :: payload) (hkey : '=' ∉ key)
      (henum : key ≠ "enum".toList) (hread : Number.read? (Text.strip payload) = .ok none) : Means cs .unknown
  | noKey {key payload : List Char} {limit : Number} (h : cs = key ++ '=' :: payload) (hkey : '=' ∉ key)
      (henum : key ≠ "enum".toList) (hread : Number.read? (Text.strip payload) = .ok (some limit))
      (htoken : BoundKey.ofToken? key = none) : Means cs .unknown

/-- A rule whose number is too long to be read. The key need not be one that takes a number. -/
def IsOverlong (cs : List Char) (k : Nat) : Prop :=
  ∃ key payload, cs = key ++ '=' :: payload ∧ '=' ∉ key ∧ key ≠ "enum".toList ∧
    Number.IsOverlong (Text.strip payload) k

theorem mark_cases (cs : List Char) :
    '=' ∉ cs ∨ (∃ payload, cs = "enum".toList ++ '=' :: payload) ∨
      ∃ key payload, cs = key ++ '=' :: payload ∧ '=' ∉ key ∧ key ≠ "enum".toList := by
  by_cases hmark : '=' ∈ cs
  · obtain ⟨key, payload, rfl, hkey⟩ := List.eq_append_cons_of_mem hmark
    by_cases henum : key = "enum".toList
    · exact .inr (.inl ⟨payload, by rw [henum]⟩)
    · exact .inr (.inr ⟨key, payload, rfl, hkey, henum⟩)
  · exact .inl hmark

theorem readKind_noMark (h : '=' ∉ cs) :
    readKind cs = .ok (if cs = [] then .absent else if cs = "email".toList then .email else .unknown) := by
  rw [readKind, Text.cut_of_not_mem h]
  split_ifs <;> rfl

theorem readKind_mark (h : '=' ∉ key) (payload : List Char) :
    readKind (key ++ '=' :: payload) =
      if key = "enum".toList then .ok (enumKind payload) else boundKind key payload := by
  have hempty : key ++ '=' :: payload ≠ [] := by simp
  have hemail : key ++ '=' :: payload ≠ "email".toList := by
    intro he
    have hmark : '=' ∈ "email".toList := he ▸ by simp
    exact absurd hmark (by decide)
  rw [readKind, if_neg hempty, if_neg hemail, Text.cut_append h]

theorem readKind_enum (payload : List Char) : readKind ("enum".toList ++ '=' :: payload) = .ok (enumKind payload) := by
  rw [readKind_mark (by decide), if_pos rfl]

def numberKind : Option Number → Option BoundKey → Kind
  | none, _ | some _, none => .unknown
  | some limit, some k => .bound k limit

theorem boundKind_of_ok {number : Option Number} (h : Number.read? (Text.strip payload) = .ok number)
    (key : List Char) : boundKind key payload = .ok (numberKind number (BoundKey.ofToken? key)) := by
  rw [boundKind, h]
  cases number <;> cases BoundKey.ofToken? key <;> rfl

theorem boundKind_of_error (h : Number.read? (Text.strip payload) = .error e) (key : List Char) :
    boundKind key payload = .error e := by
  rw [boundKind, h]
  rfl

theorem means_enumKind (h : cs = "enum".toList ++ '=' :: payload) : Means cs (enumKind payload) := by
  unfold enumKind
  split
  next hls => exact .noLiteral h hls
  next hls => exact .oneOf h rfl hls

theorem means_of_readKind (h : readKind cs = .ok kind) : Means cs kind := by
  rcases mark_cases cs with hmark | ⟨payload, rfl⟩ | ⟨key, payload, rfl, hkey, henum⟩
  · rw [readKind_noMark hmark] at h
    split_ifs at h with hempty hemail <;> cases h
    · exact .absent hempty
    · exact .email hemail
    · exact .noMark hmark hempty hemail
  · rw [readKind_enum] at h
    cases h
    exact means_enumKind rfl
  · rw [readKind_mark hkey, if_neg henum] at h
    cases hread : Number.read? (Text.strip payload) with
    | error f =>
        rw [boundKind_of_error hread] at h
        cases h
    | ok number =>
        rw [boundKind_of_ok hread] at h
        cases number with
        | none =>
            cases h
            exact .noNumber rfl hkey henum hread
        | some limit =>
            cases htoken : BoundKey.ofToken? key with
            | none =>
                rw [htoken] at h
                cases h
                exact .noKey rfl hkey henum hread htoken
            | some k =>
                rw [htoken] at h
                cases h
                exact .bound (by rw [BoundKey.ofToken?_eq_some_iff.1 htoken]) hread

theorem Means.readKind_eq (h : Means cs kind) : readKind cs = .ok kind := by
  cases h with
  | absent h | email h =>
      subst h
      rfl
  | bound h hread =>
      rw [h, readKind_mark (BoundKey.noMark_token _), if_neg (BoundKey.token_ne_enum _), boundKind_of_ok hread,
        BoundKey.ofToken?_eq_some_iff.2 rfl]
      rfl
  | oneOf h hls hne =>
      obtain ⟨l, ls, rfl⟩ := List.exists_cons_of_ne_nil hne
      rw [h, readKind_enum, enumKind, hls]
  | noMark h hempty hemail => rw [readKind_noMark h, if_neg hempty, if_neg hemail]
  | noLiteral h hls => rw [h, readKind_enum, enumKind, hls]
  | noNumber h hkey henum hread => rw [h, readKind_mark hkey, if_neg henum, boundKind_of_ok hread, numberKind]
  | noKey h hkey henum hread htoken =>
      rw [h, readKind_mark hkey, if_neg henum, boundKind_of_ok hread, htoken, numberKind]

/-- A rule is read as what it means. -/
theorem readKind_eq_ok_iff : readKind cs = .ok kind ↔ Means cs kind := ⟨means_of_readKind, Means.readKind_eq⟩

theorem Means.unique {kind' : Kind} (h : Means cs kind) (h' : Means cs kind') : kind = kind' :=
  Except.ok.inj (h.readKind_eq.symm.trans h'.readKind_eq)

/-- Reading fails just where a number is too long. -/
theorem readKind_eq_error_iff : readKind cs = .error e ↔ ∃ n, IsOverlong cs n ∧ e = .longNumeral n := by
  constructor
  · intro h
    rcases mark_cases cs with hmark | ⟨payload, rfl⟩ | ⟨key, payload, rfl, hkey, henum⟩
    · rw [readKind_noMark hmark] at h
      cases h
    · rw [readKind_enum] at h
      cases h
    · rw [readKind_mark hkey, if_neg henum] at h
      cases hread : Number.read? (Text.strip payload) with
      | ok number =>
          rw [boundKind_of_ok hread] at h
          cases h
      | error f =>
          rw [boundKind_of_error hread] at h
          cases h
          obtain ⟨n, hlong, rfl⟩ := Number.read?_eq_error_iff.1 hread
          exact ⟨n, ⟨key, payload, rfl, hkey, henum, hlong⟩, rfl⟩
  · rintro ⟨n, ⟨key, payload, rfl, hkey, henum, hlong⟩, rfl⟩
    rw [readKind_mark hkey, if_neg henum]
    exact boundKind_of_error hlong.read?_eq key

theorem means_bound_iff (hshort : ¬∃ n, IsOverlong cs n) {k : BoundKey} {limit : Number} :
    Means cs (.bound k limit) ↔
      ∃ payload, cs = k.token ++ '=' :: payload ∧ Number.Denotes (Text.strip payload) limit := by
  constructor
  · intro h
    cases h with
    | bound h hread => exact ⟨_, h, (Number.read?_eq_some_iff.1 hread).1⟩
  · rintro ⟨payload, h, hdenotes⟩
    refine .bound h (Number.read?_eq_some_iff.2 ⟨hdenotes, ?_⟩)
    rintro ⟨n, hlong⟩
    exact hshort ⟨n, k.token, payload, h, k.noMark_token, k.token_ne_enum, hlong⟩

theorem read_eq_ok_iff : read token = .ok r ↔ Means (Text.strip token.toList) r.kind ∧ r.token = Text.trim token := by
  rw [← readKind_eq_ok_iff, read]
  cases readKind (Text.strip token.toList) with
  | error f => exact ⟨nofun, nofun⟩
  | ok k =>
      constructor
      · intro h
        cases h
        exact ⟨rfl, rfl⟩
      · rintro ⟨hk, htoken⟩
        cases hk
        rw [← htoken]
        rfl

theorem read_eq_error_iff :
    read token = .error e ↔ ∃ n, IsOverlong (Text.strip token.toList) n ∧ e = .longNumeral n := by
  rw [← readKind_eq_error_iff, read]
  cases readKind (Text.strip token.toList) <;> simp [Except.map]

end Rule

end ApiScaffold
