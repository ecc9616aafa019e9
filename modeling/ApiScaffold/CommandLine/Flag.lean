namespace ApiScaffold.CommandLine

inductive Flag
  | help | feature | fields | config | verbose | noColor | skipInstall | skipChecks
  deriving DecidableEq, Repr

/-- Whether an option takes a value: never, always, or when one follows. -/
inductive Arity
  | none | one | optional
  deriving DecidableEq, Repr

namespace Flag

def names : Flag → List String
  | help => ["-h", "--help"]
  | feature => ["--feature"]
  | fields => ["--fields"]
  | config => ["-c", "--config"]
  | verbose => ["-v", "--verbose"]
  | noColor => ["--no-color"]
  | skipInstall => ["--skip-install"]
  | skipChecks => ["--skip-checks"]

def label (f : Flag) : String := "/".intercalate f.names

def arity : Flag → Arity
  | config => .one
  | feature | fields => .optional
  | help | verbose | noColor | skipInstall | skipChecks => .none

end Flag

inductive Form
  | project | feature
  deriving DecidableEq, Repr

namespace Form

def flags : Form → List Flag
  | project => [.help, .feature, .fields, .config, .verbose, .noColor, .skipInstall, .skipChecks]
  | feature => [.help, .fields, .config, .verbose, .noColor, .skipInstall, .skipChecks]

def flag? (f : Form) (name : String) : Option Flag := f.flags.find? fun g => g.names.contains name

end Form

end ApiScaffold.CommandLine
