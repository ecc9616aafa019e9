import ApiScaffold.Document
import ApiScaffold.Feature.Documents
import ApiScaffold.Json.Layout
import ApiScaffold.Project.EntryPoint
import ApiScaffold.Project.Readme
import ApiScaffold.Project.Sheet

namespace ApiScaffold

namespace SharedText

open TypeScript Json

def package (s : ProjectSheet) : Layout := .object [
  ("name", .inline s.name),
  ("version", .inline (.str "1.0.0")),
  ("description", .inline (.str "Express API with TypeScript, MongoDB, and clean architecture")),
  ("main", .inline (.str "dist/Server/index.js")),
  ("scripts", .strings [
    ("start", "node dist/Server/index.js"), ("build", "tsc"), ("dev", "nodemon Server/index.ts"),
    ("test", "jest"), ("test:watch", "jest --watch")]),
  ("dependencies", .object (s.dependencies.map fun p => (p.1, .inline p.2))),
  ("devDependencies", .object (s.devDependencies.map fun p => (p.1, .inline p.2)))]

def textList (ss : List String) : Layout := .inline (.list (ss.map .str))

def compilerOptions : Layout := .object [
  ("compilerOptions", .object [
    ("target", .inline (.str "ES2020")), ("module", .inline (.str "commonjs")),
    ("outDir", .inline (.str "./dist")), ("rootDir", .inline (.str "./")),
    ("strict", .inline (.bool true)), ("esModuleInterop", .inline (.bool true)),
    ("skipLibCheck", .inline (.bool true)),
    ("forceConsistentCasingInFileNames", .inline (.bool true)),
    ("experimentalDecorators", .inline (.bool true)), ("emitDecoratorMetadata", .inline (.bool true))]),
  ("include", textList ["Core/**/*", "Features/**/*", "Server/**/*", "__tests__/**/*"]),
  ("exclude", textList ["node_modules", "dist"])]

def jest : Module := [.running (block "export default" [
  "preset: 'ts-jest',",
  "testEnvironment: 'node',",
  "testMatch: ['**/__tests__/**/*.test.ts'],",
  "moduleFileExtensions: ['ts', 'js'],",
  "coverageDirectory: 'coverage',",
  "collectCoverageFrom: ['Features/**/*.\x7bts,js\x7d', 'Core/**/*.\x7bts,js\x7d'],"] ";")]

def environment (s : ProjectSheet) : List String := ["PORT=" ++ s.port, "MONGODB_URI=" ++ s.mongodbUri]

def ignored : List String := ["node_modules/", "dist/", ".env", "coverage/"]

def outcomeMembers (kind member unwrap unwrapErr : String) : List String := [
  s!"kind: '{kind}';", member ++ ";", "isOk(): boolean;", "isErr(): boolean;", s!"unwrap(): {unwrap};",
  s!"unwrapErr(): {unwrapErr};"]

def throwing (message : String) : String := braces s!"throw new Error('{message}');"

def outcomeBody (kind member isOk isErr unwrap unwrapErr : String) : List String :=
  block "return" [
    s!"kind: '{kind}',", member ++ ",", s!"isOk: () => {isOk},", s!"isErr: () => {isErr},",
    s!"unwrap: () => {unwrap},", s!"unwrapErr: () => {unwrapErr},"] ";"

def result : Module := [
  .declaring ⟨[], true, .typeName, "Result", "<T, E> = Ok<T> | Err<E>;", []⟩,
  .gap,
  .declaring (.block false .interfaceType "Ok" "<T>" (outcomeMembers "Ok" "value: T" "T" "never") ""),
  .gap,
  .declaring (.block false .interfaceType "Err" "<E>" (outcomeMembers "Err" "error: E" "never" "E") ""),
  .gap,
  .declaring (.block true .function "Ok" "<T>(value: T): Ok<T>"
    (outcomeBody "Ok" "value" "true" "false" "value" (throwing "Cannot unwrapErr an Ok value")) ""),
  .gap,
  .declaring (.block true .function "Err" "<E>(error: E): Err<E>"
    (outcomeBody "Err" "error" "false" "true" (throwing "Cannot unwrap an Err value") "error") "")]

def customError : Module := [
  .declaring (.block true .classType "CustomError" " extends Error"
    (block "constructor(public statusCode: number, message: string)" [
      "super(message);", "this.name = 'CustomError';"] "") "")]

def database : Module := [
  .importing (.default "mongoose" "mongoose"),
  .gap,
  .declaring (.block true .constant "connectToDatabase" " = async () =>" ([
    "const uri = process.env.MONGODB_URI;"] ++
    block "if (!uri)" ["throw new Error('MONGODB_URI is not defined in .env');"] "" ++ [
    "await mongoose.connect(uri);",
    "console.log('Connected to MongoDB');"]) ";")]

end SharedText

inductive SharedDocument
  | package | compilerOptions | jest | environment | ignored | result | customError | database
  deriving DecidableEq, Repr

namespace SharedDocument

def all : List SharedDocument :=
  [package, compilerOptions, jest, environment, ignored, result, customError, database]

def path : SharedDocument → String
  | package => "package.json"
  | compilerOptions => "tsconfig.json"
  | jest => "jest.config.ts"
  | environment => ".env"
  | ignored => ".gitignore"
  | result => "Core/result/result.ts"
  | customError => "Core/error/custom-error.ts"
  | database => "Core/config/database.ts"

def content (s : ProjectSheet) : SharedDocument → String
  | package => (SharedText.package s).text "" ++ "\n"
  | compilerOptions => SharedText.compilerOptions.text "" ++ "\n"
  | jest => SharedText.jest.text
  | environment => linesText (SharedText.environment s)
  | ignored => linesText SharedText.ignored
  | result => SharedText.result.text
  | customError => SharedText.customError.text
  | database => SharedText.database.text

def document (s : ProjectSheet) (d : SharedDocument) : Document := ⟨d.path, d.content s⟩

end SharedDocument

namespace Project

def sharedDocuments (name : String) (s : Settings) : List Document :=
  SharedDocument.all.map (SharedDocument.document (.ofProject name s))

end Project

end ApiScaffold

namespace ApiScaffold.Project

def registryOf (name : String) (fs : List Feature) : Except Failure Registry := do
  let samples ← fs.mapM fun f => (Mapping.ofFields f.fields).map fun ms => (f.name, Mapping.sampleJson ms)
  .ok ((Registry.empty name).registerAll samples)

def documents (name : String) (fs : List Feature) (s : Settings) : Except Failure (List Document) := do
  let registry ← registryOf name fs
  let readme ← Readme.render registry s
  let own ← fs.mapM fun f => f.documents s
  .ok (sharedDocuments name s ++ [EntryPoint.render registry s, readme] ++ own.flatten)

end ApiScaffold.Project

namespace ApiScaffold.Registry

def sampleOf (samples : List (String × String)) (name : String) : String :=
  (Keyed.get? name samples).getD emptySample

def load (entryPoint : String) (readme : Option String) (fallback : String) : Registry :=
  let text := readme.getD ""
  let samples := Readme.samples text
  (empty ((Readme.title? text).getD fallback)).registerAll
    ((EntryPoint.names entryPoint).map fun n => (n, sampleOf samples n))

end ApiScaffold.Registry
