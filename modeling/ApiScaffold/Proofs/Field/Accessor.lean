import ApiScaffold.Proofs.Field.Specification
import ApiScaffold.Proofs.Identifier
import ApiScaffold.Proofs.Json.Reading

namespace ApiScaffold

/-- What a text literal denotes that is all of the text. -/
def Json.literal? : List Char → Option String
  | '"' :: cs =>
    match readText cs with
    | .ok (codes, []) => Text.ofCodes? codes
    | _ => none
  | _ => none

namespace TypeScript

def identifier? (cs : List Char) : Option String :=
  if Feature.IsIdentifier (.ofList cs) then some (.ofList cs) else none

/-- The property that a key of an object denotes. -/
def property? (cs : List Char) : Option String := (identifier? cs).or (Json.literal? cs)

/-- The property that is accessed behind an object, after a point or between brackets. -/
def access? : List Char → Option String
  | '.' :: cs => identifier? cs
  | '[' :: cs => if cs.getLast? = some ']' then Json.literal? cs.dropLast else none
  | _ => none

end TypeScript

namespace Json

theorem literal?_quote (s : String) : literal? (quote s).toList = some s := by
  have hquote := toList_quote s []
  rw [List.append_nil] at hquote
  rw [hquote, literal?, readText_quote]
  exact (Text.ofCodes?_chars s.toList).trans (congrArg some String.ofList_toList)

theorem quote_injective : Function.Injective quote := by
  intro s t h
  have hliteral := literal?_quote s
  rw [h, literal?_quote] at hliteral
  exact (Option.some.inj hliteral).symm

end Json

namespace Identifier

open Feature TypeScript

variable {m n : String}

theorem identifier?_eq_some (h : IsIdentifier n) : identifier? n.toList = some n := by
  rw [identifier?, String.ofList_toList, if_pos h]

theorem identifier?_quote (s : String) : identifier? (Json.quote s).toList = none := by
  rw [identifier?, String.ofList_toList, if_neg]
  intro h
  obtain ⟨c, cs, hquote, hstart, -⟩ := isIdentifier_iff.1 h
  rw [Json.quote, String.toList_ofList, List.cons_append] at hquote
  cases hquote
  cases hstart

theorem property?_eq_some (h : IsIdentifier n) : property? n.toList = some n := by
  rw [property?, identifier?_eq_some h, Option.some_or]

theorem property?_quote (s : String) : property? (Json.quote s).toList = some s := by
  rw [property?, identifier?_quote, Option.none_or, Json.literal?_quote]

theorem isValid_iff_of_unbroken (h : '\n' ∉ n.toList.getLast?) : isValid n = true ↔ IsUsable n := by
  rw [isValid_iff]
  refine or_iff_left ?_
  rintro ⟨m, -, rfl⟩
  exact h (by rw [String.toList_append]; exact List.getLast?_concat)

theorem forms_cases (h : '\n' ∉ n.toList.getLast?) :
    (IsUsable n ∧ key n = n ∧ member n = "." ++ n) ∨
      (¬IsUsable n ∧ key n = Json.quote n ∧ member n = "[" ++ Json.quote n ++ "]") := by
  have hvalid := isValid_iff_of_unbroken h
  by_cases hn : IsUsable n
  · exact .inl ⟨hn, if_pos (hvalid.2 hn), if_pos (hvalid.2 hn)⟩
  · exact .inr ⟨hn, if_neg (mt hvalid.1 hn), if_neg (mt hvalid.1 hn)⟩

theorem property?_key (h : '\n' ∉ n.toList.getLast?) : property? (key n).toList = some n := by
  rcases forms_cases h with ⟨hn, hkey, -⟩ | ⟨-, hkey, -⟩
  · rw [hkey, property?_eq_some hn.isIdentifier]
  · rw [hkey, property?_quote]

theorem access?_member (h : '\n' ∉ n.toList.getLast?) : access? (member n).toList = some n := by
  rcases forms_cases h with ⟨hn, -, hmember⟩ | ⟨-, -, hmember⟩
  · have hlist : (member n).toList = '.' :: n.toList := by
      rw [hmember, String.toList_append]
      rfl
    rw [hlist, access?, identifier?_eq_some hn.isIdentifier]
  · have hlist : (member n).toList = '[' :: ((Json.quote n).toList ++ [']']) := by
      rw [hmember, String.toList_append, String.toList_append]
      rfl
    rw [hlist, access?, if_pos List.getLast?_concat, List.dropLast_concat, Json.literal?_quote]

theorem ne_quote_of_isValid (h : isValid n = true) (s : String) : n ≠ Json.quote s := by
  rintro rfl
  obtain ⟨c, cs, hquote, hstart⟩ := exists_start_of_isValid h
  rw [Json.quote, String.toList_ofList, List.cons_append] at hquote
  cases hquote
  cases hstart

theorem key_injective : Function.Injective key := by
  intro m n h
  rw [key, key] at h
  split at h
  next hm =>
    split at h
    · exact h
    · exact absurd h (ne_quote_of_isValid hm n)
  next =>
    split at h
    next hn => exact absurd h.symm (ne_quote_of_isValid hn m)
    · exact Json.quote_injective h

theorem member_injective : Function.Injective member := by
  intro m n h
  have hhead (s t : String) : "." ++ s ≠ "[" ++ Json.quote t ++ "]" := fun he => by
    have hlist := congrArg String.toList he
    rw [String.toList_append, String.append_assoc, String.toList_append] at hlist
    cases hlist
  rw [member, member] at h
  split at h
  · split at h
    · rw [← String.toList_inj, String.toList_append, String.toList_append, List.append_cancel_left_eq] at h
      exact String.toList_inj.1 h
    · exact absurd h (hhead m n)
  · split at h
    · exact absurd h.symm (hhead n m)
    · rw [← String.toList_inj] at h
      simp only [String.toList_append, List.append_cancel_left_eq, List.append_cancel_right_eq] at h
      exact Json.quote_injective (String.toList_inj.1 h)

end Identifier

namespace Field

open Identifier TypeScript

/-- The key and the accessor of every declared field denote its name. Both are bare where the name can be bound, and
quoted everywhere else; and no two names share a key or an accessor. -/
theorem accessors_denote :
    (∀ spec, ∀ f ∈ readSpec spec,
      property? (key f.name).toList = some f.name ∧ access? (member f.name).toList = some f.name ∧
      ((IsUsable f.name ∧ key f.name = f.name ∧ member f.name = "." ++ f.name) ∨
        (¬IsUsable f.name ∧ key f.name = Json.quote f.name ∧ member f.name = "[" ++ Json.quote f.name ++ "]"))) ∧
    Function.Injective key ∧ Function.Injective member := by
  refine ⟨fun spec f hf => ?_, key_injective, member_injective⟩
  have hunbroken : '\n' ∉ f.name.toList.getLast? := fun hbreak => by
    have hblank := (readSpec_isWellFormed spec f hf).name.trimmed.last '\n' hbreak
    cases hblank
  exact ⟨property?_key hunbroken, access?_member hunbroken, forms_cases hunbroken⟩

/-- A reserved word between line breaks, an identifier, and a name with marks and a line break inside. -/
theorem accessors_denote_marks :
    let spec := "\nclass\n:string, user_1 :number,a\"\\\n😀:boolean"
    (readSpec spec).map Field.name = ["class", "user_1", "a\"\\\n😀"] ∧
      ∀ f ∈ readSpec spec,
        property? (key f.name).toList = some f.name ∧ access? (member f.name).toList = some f.name := by
  intro spec
  refine ⟨by decide +kernel, fun f hf => ?_⟩
  obtain ⟨hkey, hmember, -⟩ := accessors_denote.1 spec f hf
  exact ⟨hkey, hmember⟩

end Field

end ApiScaffold
