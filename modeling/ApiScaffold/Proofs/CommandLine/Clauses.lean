import ApiScaffold.CommandLine.Invocation
import Mathlib.Data.List.Basic

namespace ApiScaffold.CommandLine

def IsValue (s : String) : Prop := s.toList.head? ≠ some '-'

instance (s : String) : Decidable (IsValue s) := inferInstanceAs (Decidable (s.toList.head? ≠ some '-'))

def Flag.isSwitch : Flag → Bool
  | verbose | noColor | skipInstall | skipChecks => true
  | help | feature | fields | config => false

inductive Clause
  | switch (f : Flag) (name : String)
  | feature (name : Option String)
  | fields (spec : Option String)
  deriving DecidableEq, Repr

namespace Clause

def flag : Clause → Flag
  | switch f _ => f
  | feature _ => .feature
  | fields _ => .fields

def name : Clause → String
  | switch _ n => n
  | feature _ => "--feature"
  | fields _ => "--fields"

def value : Clause → Option String
  | switch _ _ => none
  | feature v | fields v => v

def texts (c : Clause) : List String := c.name :: c.value.toList

/-- A switch goes by one of its names, and no value looks like an option. -/
def IsWellFormed : Clause → Prop
  | switch f n => f.isSwitch = true ∧ n ∈ f.names
  | feature v | fields v => ∀ s ∈ v.toList, IsValue s

instance (c : Clause) : Decidable c.IsWellFormed :=
  match c with
  | switch f n => inferInstanceAs (Decidable (f.isSwitch = true ∧ n ∈ f.names))
  | feature v | fields v => inferInstanceAs (Decidable (∀ s ∈ v.toList, IsValue s))

def items (c : Clause) : List Item := .flags [] c.flag none :: c.value.toList.map .argument

def event (c : Clause) : Event := .flag c.flag c.value

end Clause

structure Entry where
  name : String
  specs : List String
  deriving DecidableEq, Repr

namespace Entry

def clauses (e : Entry) : List Clause := .feature (some e.name) :: e.specs.map fun s => .fields (some s)

/-- What an entry declares: of several specifications the last one counts. -/
def declared (e : Entry) : String × Option String := (e.name, e.specs.getLast?)

structure IsFilled (e : Entry) : Prop where
  name : e.name ≠ ""
  specs : ∀ s ∈ e.specs, s ≠ ""

instance (e : Entry) : Decidable e.IsFilled :=
  decidable_of_iff (e.name ≠ "" ∧ ∀ s ∈ e.specs, s ≠ "") ⟨fun h => ⟨h.1, h.2⟩, fun h => ⟨h.name, h.specs⟩⟩

end Entry

section Items

variable {s p q : String} {c : Clause} {cs : List Clause} {fuel : Nat}

theorem IsValue.ne_separator (h : IsValue s) : s ≠ Item.separatorText := by
  rintro rfl
  exact h (by decide)

theorem IsValue.ofText_eq (h : IsValue s) (form : Form) : Item.ofText form s = .argument s := by
  rw [Item.ofText]
  exact if_pos (.inl h)

theorem IsValue.ofTexts_cons (h : IsValue s) (form : Form) (ss : List String) :
    Item.ofTexts form (s :: ss) = .argument s :: Item.ofTexts form ss := by
  rw [Item.ofTexts, if_neg h.ne_separator, h.ofText_eq]

theorem ofText_name (f : Flag) :
    ∀ n ∈ f.names, Item.ofText .project n = .flags [] f none ∧ n ≠ Item.separatorText := by
  cases f <;> decide +kernel

namespace Clause

theorem IsWellFormed.name_mem (h : c.IsWellFormed) : c.name ∈ c.flag.names := by
  cases c with
  | switch f n => exact h.2
  | feature v => exact List.mem_singleton.2 rfl
  | fields v => exact List.mem_singleton.2 rfl

theorem IsWellFormed.value_isValue (h : c.IsWellFormed) : ∀ s ∈ c.value.toList, IsValue s := by
  cases c with
  | switch f n => exact nofun
  | feature v => exact h
  | fields v => exact h

theorem IsWellFormed.ofTexts_append (h : c.IsWellFormed) (ss : List String) :
    Item.ofTexts .project (c.texts ++ ss) = c.items ++ Item.ofTexts .project ss := by
  obtain ⟨hname, hseparator⟩ := ofText_name c.flag c.name h.name_mem
  rw [texts, List.cons_append, Item.ofTexts, if_neg hseparator, hname, items]
  have hvalue := h.value_isValue
  cases hc : c.value with
  | none => rfl
  | some s =>
      rw [hc] at hvalue
      have hs : IsValue s := hvalue s (by simp)
      exact congrArg (Item.flags [] c.flag none :: ·) (hs.ofTexts_cons .project ss)

theorem ofTexts_clauses (h : ∀ c ∈ cs, c.IsWellFormed) :
    Item.ofTexts .project (cs.flatMap texts) = cs.flatMap items := by
  induction cs with
  | nil => rfl
  | cons c cs ih =>
      obtain ⟨hc, hcs⟩ := List.forall_mem_cons.1 h
      rw [List.flatMap_cons, List.flatMap_cons, hc.ofTexts_append, ih hcs]

theorem IsWellFormed.optionEvent_eq (h : c.IsWellFormed) (cs : List Clause) :
    optionEvent c.flag none (c.value.toList.map Item.argument ++ cs.flatMap items) =
      (.flag c.flag c.value, cs.flatMap items) := by
  cases c with
  | switch f n =>
      obtain ⟨hf, -⟩ := h
      cases f with
      | verbose | noColor | skipInstall | skipChecks => rfl
      | help | feature | fields | config => cases hf
  | feature v =>
      cases v with
      | some s => rfl
      | none => cases cs <;> rfl
  | fields v =>
      cases v with
      | some s => rfl
      | none => cases cs <;> rfl

theorem eventsOf_clauses (h : ∀ c ∈ cs, c.IsWellFormed) (waiting : Bool) (hfuel : cs.length ≤ fuel) :
    eventsOf .project fuel waiting (cs.flatMap items) = cs.map event := by
  induction cs generalizing fuel with
  | nil => cases fuel <;> rfl
  | cons c cs ih =>
      obtain ⟨hc, hcs⟩ := List.forall_mem_cons.1 h
      obtain ⟨k, rfl⟩ := Nat.exists_eq_add_of_le' hfuel
      rw [List.length_cons, ← Nat.add_assoc, List.flatMap_cons, items, List.cons_append, eventsOf, hc.optionEvent_eq cs,
        List.map_cons, ← ih hcs (Nat.le_add_left cs.length k)]
      rfl

theorem length_le_items (cs : List Clause) : cs.length ≤ (cs.flatMap items).length := by
  induction cs with
  | nil => exact Nat.le_refl _
  | cons c cs ih =>
      rw [List.flatMap_cons, items, List.cons_append, List.length_cons, List.length_cons, List.length_append]
      omega

end Clause

theorem IsValue.valueOf_eq (h : IsValue s) : valueOf [s] = some s := by
  rw [valueOf, List.erase_cons_tail (by simpa using h.ne_separator)]
  rfl

theorem takeOne_argument (required : Bool) (s : String) (items : List Item) :
    takeOne required (.argument s :: items) = some (s :: (separators items).1, (separators items).2) := rfl

theorem takeAll_positionals (hp : IsValue p) (hq : IsValue q) (cs : List Clause) :
    takeAll Form.project.positionals (.argument p :: .argument q :: cs.flatMap Clause.items) =
      some ([some p, some q], cs.flatMap Clause.items) := by
  have hrest : separators (cs.flatMap Clause.items) = ([], cs.flatMap Clause.items) := by cases cs <;> rfl
  have hname : takeOne true (.argument p :: .argument q :: cs.flatMap Clause.items) =
      some ([p], .argument q :: cs.flatMap Clause.items) := rfl
  have hfolder : takeOne false (.argument q :: cs.flatMap Clause.items) = some ([q], cs.flatMap Clause.items) := by
    rw [takeOne_argument, hrest]
  simp only [Form.positionals, takeAll, hname, hfolder, Option.bind_eq_bind, Option.bind_some, hp.valueOf_eq,
    hq.valueOf_eq]

/-- The name and the folder come first, then the options in their order. -/
theorem events_clauses (hp : IsValue p) (hq : IsValue q) (h : ∀ c ∈ cs, c.IsWellFormed) :
    events .project (p :: q :: cs.flatMap Clause.texts) = .positionals [some p, some q] :: cs.map Clause.event := by
  have hlength := Clause.length_le_items cs
  rw [events, hp.ofTexts_cons, hq.ofTexts_cons, Clause.ofTexts_clauses h, List.length_cons, eventsOf,
    takeAll_positionals hp hq cs]
  · dsimp only
    rw [Clause.eventsOf_clauses h false (by rw [List.length_cons]; omega)]
  -- what stands first is an argument
  · exact nofun
  · exact nofun
  · exact nofun

end Items

end ApiScaffold.CommandLine
