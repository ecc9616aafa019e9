import ApiScaffold.Data
import ApiScaffold.Feature.Sheet
import ApiScaffold.Registry
import ApiScaffold.Settings

namespace ApiScaffold

structure ProjectSheet where
  name : Data
  dependencies : List (String × Data)
  devDependencies : List (String × Data)
  port : String
  mongodbUri : String

namespace ProjectSheet

def runtimePackages : List (String × String) := [
  ("dotenv", "^16.4.5"), ("express", "^4.21.1"), ("mongoose", "^8.7.2"), ("reflect-metadata", "^0.2.2"),
  ("tsyringe", "^4.8.0"), ("zod", "^3.23.8")]

def developmentPackages : List (String × String) := [
  ("@types/express", "^5.0.0"), ("@types/jest", "^29.5.13"), ("@types/node", "^22.7.5"),
  ("@types/supertest", "^6.0.2"), ("jest", "^29.7.0"), ("nodemon", "^3.1.7"), ("supertest", "^7.0.0"),
  ("ts-jest", "^29.2.5"), ("ts-node", "^10.9.2"), ("typescript", "^5.6.3")]

def versions (packages : List (String × String)) : List (String × Data) :=
  packages.map fun p => (p.1, .str p.2)

def dropSlashes (s : String) : String := .ofList ((s.toList.reverse.dropWhile (· == '/')).reverse)

def ofProject (name : String) (s : Settings) : ProjectSheet where
  name := .str name
  dependencies := versions runtimePackages
  devDependencies := versions developmentPackages
  port := Number.intText s.port
  mongodbUri := dropSlashes s.mongodbHost ++ "/" ++ name

end ProjectSheet

structure WiredFeature where
  name : String
  sample : String
  route : String
  controllerClass : String
  controllerVariable : String
  controllerModule : String
  containerModule : String
  deriving DecidableEq, Repr

structure WiringSheet where
  project : String
  features : List WiredFeature
  port : String
  baseUrl : String
  deriving DecidableEq, Repr

namespace WiringSheet

def wired (s : Settings) (f : String × String) : WiredFeature where
  name := f.1
  sample := f.2
  route := s.route f.1
  controllerClass := Identifier.controllerClass f.1
  controllerVariable := Identifier.controllerVariable f.1
  controllerModule := Identifier.controllerModule f.1
  containerModule := Identifier.containerModule f.1

def ofRegistry (r : Registry) (s : Settings) : WiringSheet where
  project := r.project
  features := r.features.map (wired s)
  port := Number.intText s.port
  baseUrl := "http://localhost:" ++ Number.intText s.port

end WiringSheet

end ApiScaffold
