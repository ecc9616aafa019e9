import ApiScaffold.CommandLine.Flag
import ApiScaffold.TypeScript.Module

namespace ApiScaffold.CommandLine

def usageLines : List String := [
  "Usage: tsclean <project-name> [path] [--feature <feature-name> " ++
    "--fields <field1:type1:rule1,field2:type2:rule2> ...]",
  "       tsclean feature <feature-name> [--fields <field1:type1:rule1,field2:type2:rule2>]",
  "Example: tsclean FoodStore ./ --feature products --fields name:string:minlength=3,price:number:min=0"]

def commonHelp : List String := [
  "  -c CONFIG, --config CONFIG",
  "                        Path to a YAML configuration file.",
  "  -v, --verbose         Enable verbose DEBUG logging for the generator tool.",
  "  --no-color            Disable colored output (useful for CI/CD",
  "                        environments).",
  "  --skip-install        Do not run 'npm install' in the new project.",
  "  --skip-checks         Skip the node/npm/tsc preflight."]

def helpOption : String := "  -h, --help            show this help message and exit"

namespace Form

def helpLines : Form → List String
  | project => [
      "usage: tsclean <project-name> [path] [--feature <name> [--fields <spec>]]... [options]",
      "",
      "Scaffold an Express + TypeScript + MongoDB API with a clean architecture",
      "layout.",
      "",
      "positional arguments:",
      "  project_name          Name of the project directory to create.",
      "  path                  Parent directory of the project (default: .).",
      "",
      "options:",
      helpOption,
      "  --feature [FEATURES]  Add a feature; may be repeated.",
      "  --fields [FIELDS]     Fields of the preceding --feature as",
      "                        name:type[:rule],..."] ++ commonHelp
  | feature => [
      "usage: tsclean feature <name> [--fields <spec>] [options]",
      "",
      "Add a feature to the tsclean project in the current directory.",
      "",
      "positional arguments:",
      "  name                  Feature name.",
      "",
      "options:",
      helpOption,
      "  --fields [FIELDS]     Fields as name:type[:rule],..."] ++ commonHelp

def help (f : Form) : String := linesText f.helpLines

end Form

end ApiScaffold.CommandLine
