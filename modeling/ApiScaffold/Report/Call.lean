import ApiScaffold.Data
import ApiScaffold.Keyed

namespace ApiScaffold.Report

namespace Kind

def className : Kind → String
  | general => "TscleanGeneratorError"
  | usage => "UsageError"
  | configuration => "ConfigurationError"
  | projectExists => "ProjectExistsError"
  | notAProject => "NotAProjectError"
  | environment => "EnvironmentCheckError"
  | codeGeneration => "CodeGenerationError"

/-- What a report of a kind is made from, of which only the first has to be given. -/
def parameters : Kind → List String
  | general => ["message", "context", "suggestions", "error_code"]
  | usage => ["message"]
  | configuration => ["message", "config_file"]
  | projectExists => ["project_root"]
  | notAProject => ["project_root", "entry_point"]
  | environment => ["message", "tool"]
  | codeGeneration => ["message", "template", "feature"]

def required (k : Kind) : String := k.parameters.headD ""

/-- The parameters that are put into a context from outside. -/
def entryKeys : Kind → List String
  | configuration => ["config_file"]
  | environment => ["tool"]
  | codeGeneration => ["template", "feature"]
  | _ => []

end Kind

structure Call where
  kind : Kind
  values : List Data
  named : List (String × Data)

namespace Call

inductive Fault
  | repeated (key : String)
  | unexpected (key : String)
  | tooMany (given : Nat)
  | missing
  /-- The context from outside takes no entries. -/
  | fixed (kindName : String)
  deriving DecidableEq, Repr

def Fault.message (k : Kind) : Fault → String
  | repeated key => s!"{k.className}.__init__() got multiple values for argument '{key}'"
  | unexpected key => s!"{k.className}.__init__() got an unexpected keyword argument '{key}'"
  | tooMany given =>
    let taken := if k.parameters.length = 1 then "2" else s!"from 2 to {k.parameters.length + 1}"
    s!"{k.className}.__init__() takes {taken} positional arguments but {given} were given"
  | missing => s!"{k.className}.__init__() missing 1 required positional argument: '{k.required}'"
  | fixed "list" => "list indices must be integers or slices, not str"
  | fixed kindName => s!"'{kindName}' object does not support item assignment"

variable (c : Call)

def value (key : String) : Data :=
  (((c.kind.parameters.idxOf? key).bind (c.values[·]?)).or (Keyed.get? key c.named)).getD .null

def part (key : String) : Option String :=
  if (c.value key).truthy then some (c.value key).shown else none

def code : Option String :=
  match c.value "error_code" with
  | .str s => some s
  | _ => none

/-- What is wrong with a value by name: that there is one by its place, or no parameter of that name. Only a general
report refuses the latter. -/
def namedFault? (key : String) : Option Fault :=
  match ("self" :: c.kind.parameters).idxOf? key with
  | some i => if i ≤ c.values.length then some (.repeated key) else none
  | none => if c.kind = .general then some (.unexpected key) else none

def placedFault? : Option Fault :=
  if c.kind.parameters.length < c.values.length then some (.tooMany (c.values.length + 1))
  else if c.values.isEmpty && !(Keyed.keys c.named).contains c.kind.required then some .missing
  else none

def contextFault? : Option Fault :=
  if c.kind.entryKeys.any fun key => (c.value key).truthy then
    match Keyed.get? "context" c.named with
    | none | some (.mapping _) => none
    | some v => some (.fixed v.kindName)
  else none

/-- The first fault; values by name count before their number, and that before the context. -/
def fault? : Option Fault :=
  (((Keyed.keys c.named).findSome? c.namedFault?).or c.placedFault?).or c.contextFault?

def own : Report :=
  match c.kind with
  | .general => ⟨.general, (c.value "message").shown, c.code, [], []⟩
  | .usage => .usage (c.value "message").shown
  | .configuration => .configuration (c.value "message").shown (c.part "config_file")
  | .projectExists => .projectExists (c.value "project_root").shown
  | .notAProject => .notAProject (c.value "project_root").shown (c.part "entry_point")
  | .environment => .environment (c.value "message").shown (c.part "tool")
  | .codeGeneration => .codeGeneration (c.value "message").shown (c.part "template") (c.part "feature")

/-- The context from outside, which a report about a folder does not look at. -/
def context : List (String × String) :=
  match c.kind, c.value "context" with
  | .projectExists, _ | .notAProject, _ => []
  | _, .mapping es => es.map fun e => (e.1.shown, e.2.shown)
  | _, _ => []

def suggestions : List String :=
  match c.value "suggestions" with
  | .list ds => ds.map Data.shown
  | _ => []

def report : Except Fault Report :=
  match c.fault? with
  | some f => .error f
  | none => .ok { c.own with
      context := c.own.context.foldl (fun t p => Keyed.put p.1 p.2 t) c.context
      suggestions := if c.suggestions.isEmpty then c.own.suggestions else c.suggestions }

end Call

end ApiScaffold.Report
