import SolidityBuild.Build.Compilation
import SolidityBuild.Project.Sources
import SolidityBuild.Version

/-!
Building a project. A plain folder is one request with all its sources, compiled by the version that is
asked for. A framework builds its project itself, and every compiler run that it records is compiled
again, in order, by the version it names, until one fails.
-/

set_option autoImplicit false

namespace SolidityBuild

/-- What is to be built, and how. -/
structure BuildOrder where
  /-- The name of the kind of project. -/
  project : Text
  folder : Path
  version : Option Text := none
  selection : Option Selection := none
  post : Postprocessing := .default
  /-- The kinds of projects for which a framework is at hand. -/
  providers : List ProjectKind := [.hardhat, .forge]

namespace BuildOrder

/-- The request to compile the sources of a folder. -/
def folderRequest (sources : Table SourceText) (remappings : List Text) : CompileRequest where
  language := CompileRequest.defaultLanguage
  sources := sources
  settings := [("remappings", .list (remappings.map .text))]

/-- Builds a plain folder. -/
def buildFolder (order : BuildOrder) (files : Files) (version : Text) : Program Bundle := do
  let sources ← .ofNarrated (Project.sources files order.folder)
  let remappings ← .ofNarrated (Project.remappings files order.folder)
  (folderRequest sources remappings).compile version (order.selection.getD .all) order.post

/-- Compiles recorded requests, one after the other. -/
def compileRecords (post : Postprocessing) : List BuildRecord → Program (List Bundle)
  | [] => pure []
  | record :: rest =>
    match CompileRequest.ofJson (.object record.input) with
    | .error rejection => .fail (.requestRejected rejection)
    | .ok request => do
      let bundle ← request.compile (Version.ofLong record.longVersion) .all post
      let bundles ← compileRecords post rest
      pure (bundle :: bundles)

/-- Builds what a framework records. -/
def buildRecorded (order : BuildOrder) (kind : ProjectKind) : Program (List Bundle) :=
  .framework kind order.folder fun outcome =>
    if outcome.success then compileRecords order.post outcome.records
    else .fail (.frameworkFailed outcome.complaint)

/-- What is told if a contract is selected that a framework build does not heed. -/
def ignoredSelection (kind : ProjectKind) : Option Selection → List Event
  | some (.contract name) =>
    [⟨.warning, "contract_selection_ignored",
      [("project", .text kind.name), ("selection", (Selection.contract name).toJson)]⟩]
  | _ => []

/-- The kind of project to build. -/
def kind (order : BuildOrder) (files : Files) : Program ProjectKind :=
  match ProjectKind.ofName? order.project with
  | none => .fail (.projectUnknown order.project)
  | some .detect => .ofNarrated (Project.detect files order.folder)
  | some kind => .done kind

/-- Builds a project as it stands in a tree of files. -/
def build (order : BuildOrder) (files : Files) : Program (List Bundle) := do
  let kind ← order.kind files
  .tell ⟨.info, "build_started",
    [("project", .text kind.name), ("task_dir", .text order.folder.text)]⟩ (.done ())
  if kind = .folder then
    match order.version with
    | none | some [] => .fail .versionMissing
    | some version => do
      let bundle ← order.buildFolder files version
      pure [bundle]
  else if !order.providers.contains kind then .fail (.providerMissing kind)
  else do
    .tellAll (ignoredSelection kind order.selection) (.done ())
    order.buildRecorded kind

end BuildOrder

end SolidityBuild
