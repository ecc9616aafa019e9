import ApiScaffold.Data
import ApiScaffold.Field.Basic

namespace ApiScaffold

structure Settings where
  minNodeVersion : Int
  defaultFields : String
  port : Int
  mongodbHost : String
  apiPrefix : String
  installDependencies : Bool
  checkEnvironment : Bool
  deriving DecidableEq, Repr

namespace Settings

def standard : Settings :=
  ⟨18, Field.defaultSpec, 3000, "mongodb://localhost:27017", "/api", true, true⟩

def route (s : Settings) (feature : String) : String := s.apiPrefix ++ "/" ++ feature

end Settings

inductive Settings.Key
  | minNodeVersion | defaultFields | port | mongodbHost | apiPrefix | installDependencies
  | checkEnvironment
  deriving DecidableEq, Repr

namespace Settings.Key

def all : List Key := [minNodeVersion, defaultFields, port, mongodbHost, apiPrefix,
  installDependencies, checkEnvironment]

def text : Key → String
  | minNodeVersion => "min_node_version"
  | defaultFields => "default_fields"
  | port => "port"
  | mongodbHost => "mongodb_host"
  | apiPrefix => "api_prefix"
  | installDependencies => "install_dependencies"
  | checkEnvironment => "check_environment"

end Settings.Key

inductive Settings.Problem
  | notWhole
  | fractional
  | notFinite
  | tooLarge
  | unreadable
  | belowOne
  | portFlag
  | portText (s : String)
  | portDigits (s : String)
  | portLong (digits : Nat)
  | portKind (kind : String)
  | portRange (n : Int)
  | notText
  | undecodable
  | emptyText
  | noFields (s : String)
  | notFlag
  | unclearFlag
  | notMapping
  deriving DecidableEq, Repr

namespace Settings.Problem

def message : Problem → String
  | notWhole => "Input should be a valid integer"
  | fractional => "Input should be a valid integer, got a number with a fractional part"
  | notFinite => "Input should be a finite number"
  | tooLarge => "Unable to parse input string as an integer, exceeded maximum size"
  | unreadable => "Input should be a valid integer, unable to parse string as an integer"
  | belowOne => "Input should be greater than or equal to 1"
  | portFlag => "Value error, Port must be an integer, got bool"
  | portText s => s!"Value error, Port must be a number or string containing only digits, got '{s}'"
  | portDigits s => "Value error, " ++ (Failure.noWhole 10 s).message
  | portLong n => "Value error, " ++ (Failure.longNumeral n).message
  | portKind k => s!"Value error, Port must be an integer or string containing digits, got {k}"
  | portRange n => s!"Value error, Port must be between 1 and 65535, got {Number.intText n}"
  | notText => "Input should be a valid string"
  | undecodable => "Input should be a valid string, unable to parse raw data as a unicode string"
  | emptyText => "String should have at least 1 character"
  | noFields s => s!"Value error, '{s}' does not declare any field"
  | notFlag => "Input should be a valid boolean"
  | unclearFlag => "Input should be a valid boolean, unable to interpret input"
  | notMapping => "Input should be a valid dictionary or instance of ToolConfigSchema"

end Settings.Problem

/-- A problem with the value of a key, or of the document as a whole. -/
structure Settings.Fault where
  key : Option Settings.Key
  problem : Settings.Problem
  value : Data

namespace Settings.Fault

def place (f : Fault) : String := (f.key.map Key.text).getD "Model Level"

def message (f : Fault) : String := f.place ++ ": " ++ f.problem.message

def detail (f : Fault) : String :=
  s!"Configuration error at '{f.place}': {f.problem.message} (input: {f.value.literal})"

end Settings.Fault

end ApiScaffold
