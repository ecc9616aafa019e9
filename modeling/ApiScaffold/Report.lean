namespace ApiScaffold

inductive Report.Kind
  | general | usage | configuration | projectExists | notAProject | environment | codeGeneration
  deriving DecidableEq, Repr

structure Report where
  kind : Report.Kind
  message : String
  code : Option String
  context : List (String × String)
  suggestions : List String
  deriving DecidableEq, Repr

namespace Report

def configurationAdvice : List String := [
  "Check the configuration file syntax",
  "Verify the value types of every key",
  "Remove unknown keys or fix their spelling"]

def environmentAdvice : List String := [
  "Install the missing tool and make sure it is on PATH",
  "Re-run with --skip-checks to bypass the preflight"]

def usage (message : String) : Report := ⟨.usage, message, some "USAGE_ERROR", [], []⟩

def entry (key : String) : Option String → List (String × String)
  | some v => if v = "" then [] else [(key, v)]
  | none => []

def configuration (message : String) (file : Option String) : Report :=
  ⟨.configuration, message, some "CONFIG_ERROR", entry "config_file" file, configurationAdvice⟩

def projectExists (root : String) : Report :=
  ⟨.projectExists,
    s!"Directory {root} already exists. Please remove it or choose a different name.",
    some "PROJECT_EXISTS", [("project_root", root)], []⟩

def notAProject (root : String) (entryPoint : Option String) : Report :=
  ⟨.notAProject, "Error: Current directory is not a tsclean project. Run from the project root.",
    some "NOT_A_PROJECT", ("project_root", root) :: entry "entry_point" entryPoint, []⟩

def environment (message : String) (tool : Option String) : Report :=
  ⟨.environment, message, some "ENVIRONMENT_ERROR", entry "tool" tool, environmentAdvice⟩

def codeGeneration (message : String) (template feature : Option String) : Report :=
  ⟨.codeGeneration, message, some "CODE_GENERATION_ERROR",
    entry "template" template ++ entry "feature" feature, []⟩

/-- The whole report: message, code, context and suggestions, each part only when there is one. -/
def text (r : Report) : String :=
  "\n".intercalate ([r.message] ++
    (match r.code with
      | some c => if c = "" then [] else ["Error Code: " ++ c]
      | none => []) ++
    (if r.context.isEmpty then [] else "Context:" :: r.context.map fun p => s!"  {p.1}: {p.2}") ++
    (if r.suggestions.isEmpty then [] else "Suggestions:" :: r.suggestions.map ("  • " ++ ·)))

end Report

end ApiScaffold
