import ApiScaffold.Document
import ApiScaffold.Project.Sheet
import ApiScaffold.Text.Cut

namespace ApiScaffold

namespace Readme

def path : String := "README.md"

def code (command : List String) : List String :=
  ["   \x60\x60\x60bash"] ++ command.map ("   " ++ ·) ++ ["   \x60\x60\x60"]

def opening (project : String) : List String := [
  "# " ++ project,
  "",
  "A TypeScript-based Express API with MongoDB, Mongoose, clean architecture, Zod validation, " ++
    "tsyringe DI, and Jest testing.",
  "",
  "## Setup",
  "",
  "1. Ensure MongoDB is running locally or update \x60.env\x60 with your MongoDB URI.",
  "2. Install dependencies:"] ++ code ["npm install"] ++ [
  "3. Run in development mode:"] ++ code ["npm run dev"] ++ [
  "4. Build for production:"] ++ code ["npm run build", "npm start"] ++ [
  "5. Run tests:"] ++ code ["npm test"] ++ [
  "",
  "## Testing",
  ""]

def request (url sample : String) : String :=
  s!"  curl -X POST {url} -H \"Content-Type: application/json\" -d '{sample}'"

def usage (baseUrl : String) (f : WiredFeature) (phrase : String) : List String := [
  s!"- Create {phrase}:",
  "  \x60\x60\x60bash",
  request (baseUrl ++ f.route) f.sample,
  "  \x60\x60\x60"]

def noFeatures : String :=
  "No features have been added yet. Run \x60tsclean feature <name>\x60 from the project root."

def closing (names : List String) : List String := [
  "",
  "## Structure",
  "",
  "- \x60Core/\x60: Shared utilities (config, error, result).",
  "- \x60Features/\x60: Feature-specific modules (" ++ ", ".intercalate names ++ ").",
  "  - \x60domain/\x60: Business logic (entities, use cases, repositories).",
  "  - \x60data/\x60: Data access (models, data sources, repositories).",
  "  - \x60delivery/\x60: HTTP layer (controllers, middleware).",
  "  - \x60container.ts\x60: DI container setup.",
  "- \x60Server/\x60: Application entry point.",
  "- \x60__tests__/\x60: Jest tests for features.",
  "",
  "## Notes",
  "",
  "- Uses \x60tsyringe\x60 for dependency injection and \x60zod\x60 for validation.",
  "- Run \x60npm test\x60 to execute unit and integration tests.",
  "- Ensure MongoDB is running for integration tests."]

def lines (s : WiringSheet) (phrases : List String) : List String :=
  opening s.project ++
  (if s.features.isEmpty then [noFeatures]
    else (s.features.zip phrases).flatMap fun p => usage s.baseUrl p.1 p.2) ++
  closing (s.features.map (·.name))

def render (r : Registry) (s : Settings) : Except Failure Document := do
  let phrases ← r.names.mapM withArticle
  .ok ⟨path, linesText (lines (.ofRegistry r s) phrases)⟩

def titleLine? (line : List Char) : Option String :=
  match Text.stripLead? ['#', ' '] line with
  | none | some [] => none
  | some cs => some (.ofList (Text.beforeBlanks cs))

def title? (content : String) : Option String := (content.toList.splitOn '\n').findSome? titleLine?

def lastPart? (url : List Char) : Option (List Char) :=
  if url.contains '/' then
    match (url.reverse.takeWhile (· != '/')).reverse with
    | [] => none
    | name => some name
  else none

/-- A line without its last quote, when only blanks follow that. -/
def beforeQuote? (line : List Char) : Option (List Char) :=
  match line.reverse.dropWhile Text.isBlank with
  | '\'' :: cs => some cs.reverse
  | _ => none

def request? (cs : List Char) : Option ((String × String) × List Char) := do
  let r ← Text.stripLead? "curl -X POST ".toList (Text.stripStart cs)
  let (url, r) := r.span fun c => !Text.isBlank c
  let name ← lastPart? url
  let r ← Text.stripLead? " -H \"Content-Type: application/json\" -d '".toList r
  let (line, r) := r.span (· != '\n')
  let payload ← beforeQuote? line
  some ((.ofList name, .ofList payload), r)

/-- The payload of each feature's last request. -/
def samples (content : String) : List (String × String) :=
  Keyed.ofPairs (Text.scan request? content.toList)

end Readme

end ApiScaffold
