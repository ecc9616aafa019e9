import ApiScaffold.CommandLine.Item

namespace ApiScaffold.CommandLine

inductive Event
  /-- The positional arguments, each missing or given. -/
  | positionals (values : List (Option String))
  | flag (f : Flag) (value : Option String)
  | extra (s : String)
  | wrong (message : String)
  deriving DecidableEq, Repr

namespace Form

def positionals : Form → List Bool
  | project => [true, false]
  | feature => [false]

end Form

def valueOf (taken : List String) : Option String := (taken.erase Item.separatorText).head?

def separators (items : List Item) : List String × List Item :=
  let (ss, rest) := items.span (· == .separator)
  (ss.map Item.text, rest)

/-- What one positional argument takes: an argument, with the separators around it. -/
def takeOne (required : Bool) (items : List Item) : Option (List String × List Item) :=
  let (before, rest) := separators items
  match rest with
  | .argument s :: rest =>
    let (behind, rest) := separators rest
    some (before ++ [s] ++ behind, rest)
  | rest => if required then none else some (before, rest)

def takeAll : List Bool → List Item → Option (List (Option String) × List Item)
  | [], items => some ([], items)
  | required :: more, items => do
    let (taken, rest) ← takeOne required items
    let (values, rest) ← takeAll more rest
    some (valueOf taken :: values, rest)

def optionEvent (f : Flag) (value : Option String) (items : List Item) : Event × List Item :=
  match value, f.arity, items with
  | some v, _, items => (.flag f (valueOf [v]), items)
  | none, .none, items => (.flag f none, items)
  | none, _, .argument s :: items => (.flag f (some s), items)
  | none, .one, items => (.wrong s!"argument {f.label}: expected one argument", items)
  | none, .optional, items => (.flag f none, items)

/-- The events of options written together; none is obeyed when the last lacks its value. -/
def optionEvents (fs : List Flag) : Event → List Event
  | .wrong message => [.wrong message]
  | e => fs.map (fun f => .flag f none) ++ [e]

def refusal (f : Flag) (value : String) : Event :=
  .wrong s!"argument {f.label}: ignored explicit argument {Text.literal value}"

/-- The events of some items; `fuel` is at least their number, and `waiting` tells whether the positional
arguments are still to come. -/
def eventsOf (form : Form) : Nat → Bool → List Item → List Event
  | 0, _, _ => []
  | _, _, [] => []
  | fuel + 1, waiting, .flags fs last value :: items =>
    let (e, rest) := optionEvent last value items
    optionEvents fs e ++ eventsOf form fuel waiting rest
  | fuel + 1, waiting, .unknown s :: items => .extra s :: eventsOf form fuel waiting items
  | _, _, .overfull f value :: _ => [refusal f value]
  | fuel + 1, false, item :: items => .extra item.text :: eventsOf form fuel false items
  | fuel + 1, true, item :: items =>
    match takeAll form.positionals (item :: items) with
    | some (values, rest) => .positionals values :: eventsOf form fuel false rest
    | none => .extra item.text :: eventsOf form fuel true items

def events (form : Form) (argv : List String) : List Event :=
  let items := Item.ofTexts form argv
  eventsOf form items.length true items

end ApiScaffold.CommandLine
