import ApiScaffold.Feature.Review
import ApiScaffold.Notes
import ApiScaffold.Project.Documents
import ApiScaffold.Project.Manifest
import ApiScaffold.Settings.Load
import ApiScaffold.Toolchain.Preflight

namespace ApiScaffold

/-- What a run has written, and what it warned of. -/
structure Generated where
  root : Path
  documents : List Document
  warnings : List String

namespace Generation

def reviewAll (fs : List Feature) : Run (List String) := do
  let all ← fs.mapM fun f => do
    let r ← Run.ofExcept f.review
    Run.ofExcept r.require
    Run.tell (r.warnings.map fun w => ⟨.warning, w⟩)
    return r.warnings
  return all.flatten

def writeDocument (root : Path) (d : Draft) : Run Path := do
  let p := root / d.path
  try
    Run.makeDirectories true p.parent
    Run.write p d.content
  catch f =>
    if !f.isSystem then throw f
    Run.tell [⟨.error, s!"Error writing '{p.text}': {f.message}"⟩]
    throw (.reported (.codeGeneration s!"Failed to write '{p.text}': {f.message}" none none))
  Run.debug ("Generated file: " ++ p.text)
  return p

def writeDocuments (root : Path) (ds : List Draft) : Run (List Path) := ds.mapM (writeDocument root)

def makeFolders (root : Path) (folders : List String) : Run Unit :=
  folders.forM fun d => Run.makeDirectories true (root / d)

def putDown (root : Path) (ds : List Draft) : Run Unit := do
  let _ ← writeDocuments root ds
  Run.tell (ds.map fun d => Marker.success.record ("Created " ++ d.path))

def coreFolders : List String := ["Core/config", "Core/error", "Core/result", "Server", "__tests__"]

def closing (root : Path) : List Record := [
  Marker.success.record "Project setup complete!",
  Marker.highlight.record "To start the development server, run:",
  ⟨.info, "  cd " ++ root.text⟩,
  ⟨.info, "  npm run dev"⟩,
  Marker.highlight.record "To run tests, run:",
  ⟨.info, "  npm test"⟩]

def create (project folder : String) (fs : List Feature) (s : Spelled Settings) : Run Generated := do
  let root := Path.ofText folder / project
  if (← Run.at? root).isSome then throw (.reported (.projectExists root.text))
  if s.shown.checkEnvironment then Toolchain.check s.shown.minNodeVersion
  let warnings ← reviewAll fs
  Run.tell (Record.header ("Setting up project: " ++ project))
  Run.tell (Project.notes fs)
  let drafts ← Run.ofExcept (Draft.render (Project.documents project fs) s)
  Run.makeDirectories false root
  makeFolders root coreFolders
  for f in fs do
    makeFolders root (Feature.directories f.name)
    Run.mark .progress ("Created folder structure for feature: " ++ f.name)
  putDown root drafts
  if s.shown.installDependencies then
    let _ ← Toolchain.installPackages root.text
  Run.tell (closing root)
  return ⟨root, drafts.map Draft.shown, warnings⟩

/-- The place that a path means, without looking at the tree. -/
def resolved (here : Location) (p : Path) : Location :=
  p.parts.foldl Tree.next (Tree.start here p)

/-- The name of a project: what its manifest says, or else the name of its folder. -/
def projectName (root : Path) : Run (Spelled String) := do
  let manifest := root / Manifest.path
  let folder := ((resolved (← get).here root).getLast?).getD ""
  if root.hasNull then throw .nullInPath
  match (← Run.file? manifest).map Manifest.name with
  | none => return folder
  | some (.ok name) => return name.getD (.plain folder)
  | some (.error f) =>
    Run.debug s!"Could not read project name from {manifest.text}: {f.message}"
    return folder

def readFile? (p : Path) : Run (Option String) := do
  match ← Run.file? p with
  | some c => return some (← Run.ofExcept c.read)
  | none => return none

def loadRegistry (root : Path) (entryPoint : Content) : Run (Spelled Registry) := do
  let readme ← readFile? (root / Readme.path)
  let text ← Run.ofExcept entryPoint.read
  let r := (← projectName root).map (Registry.load text readme)
  Run.tell ((EntryPoint.strays text).map fun p => ⟨.warning, EntryPoint.strayWarning p⟩)
  let project := (r.map Registry.project).told
  Run.debug s!"Loaded registry for '{project}': {Text.literalList r.shown.names}"
  return r

def addedDocuments (r : Registry) (f : Feature) (s : Settings) : Except Failure (List Document) := do
  let own ← f.documents s
  let readme ← Readme.render r s
  .ok (own ++ [EntryPoint.render r s, readme])

def registerFeature (r : Registry) (f : Feature) : Run Registry := do
  Run.tell (Mapping.notesOf f.fields)
  let ms ← Run.ofExcept (Mapping.ofFields f.fields)
  let entered := r.enter f.name (Mapping.sampleJson ms)
  if !entered.1 then
    Run.debug s!"Feature '{f.name}' is already wired; refreshing its entry"
    Run.warn s!"Feature '{f.name}' already exists; its files will be regenerated"
  return entered.2

/-- The drafts of an addition; `r` is the registry with the feature in it, and `project` what it is called. -/
def addedDrafts (r : Registry) (project : Spelled String) (f : Feature) (s : Spelled Settings) :
    Except Failure (List Draft) :=
  Draft.render (fun a => addedDocuments { r with project := a.1 } f a.2) (project.both s)

def add (folder name : String) (spec : Option String) (s : Spelled Settings) : Run Generated := do
  let root := Path.ofText folder
  let entryPoint := root / EntryPoint.path
  let some content ← Run.file? entryPoint
    | throw (.reported (.notAProject root.text (some entryPoint.text)))
  if s.shown.checkEnvironment then Toolchain.check s.shown.minNodeVersion
  Run.tell (Field.resolveNotes spec s.shown.defaultFields)
  let f := Feature.build name spec s.shown.defaultFields
  let warnings ← reviewAll [f]
  let loaded ← loadRegistry root content
  Run.tell (Record.header ("Adding feature: " ++ name))
  let r ← registerFeature loaded.shown f
  Run.tell f.documentNotes
  let drafts ← Run.ofExcept (addedDrafts r (loaded.map Registry.project) f s)
  makeFolders root (Feature.directories name)
  putDown root drafts
  Run.mark .success s!"Feature '{name}' added to {r.project}"
  return ⟨root, drafts.map Draft.shown, warnings⟩

end Generation

end ApiScaffold
