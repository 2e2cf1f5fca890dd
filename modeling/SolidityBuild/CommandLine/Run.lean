import SolidityBuild.Build.Project
import SolidityBuild.Build.Workshop
import SolidityBuild.CommandLine.Usage
import SolidityBuild.Files.Resolve
import SolidityBuild.Project.Config

/-!
Running a command: what it prints and the code that it ends with. A failure that a build foresees is
printed and ends the command with code one; anything else ends it without a code.
-/

set_option autoImplicit false

namespace SolidityBuild

/-- How a command ended. -/
structure Exit where
  code : Nat
  stdout : Text := []
  stderr : Text := []
deriving DecidableEq, Repr

namespace Exit

/-- A command that failed, with its message. -/
def failed (message : Text) : Exit := ⟨1, [], "Error: " ++ message ++ "\n"⟩

end Exit

namespace CommandLine

/-- The path from the top for a path, where nothing foresees that there is none. -/
def resolve (files : Files) (p : Path) : Except Failure Path :=
  match files.resolve p with
  | .ok resolved => .ok resolved
  | .error .nullInPath => .error (.unforeseen .nullInPath)
  | .error (.linkLoop path) => .error (.unforeseen (.linkLoop path))

/-- An answer about a path, where nothing foresees a fault. -/
def foresee {α : Type} : Except FileFault α → Except Failure α
  | .ok a => .ok a
  | .error fault => .error (.unforeseen fault.defect)

/-- The folder that an argument names, or how the command ends if there is none. -/
def folder (files : Files) (argument : Text) : Except Failure (Except Exit Path) := do
  let path ← resolve files (.ofText argument)
  if ← foresee (files.isFolder path) then pure (.ok path)
  else pure (.error (.failed ("directory '" ++ path.text ++ "' does not exist.")))

/-- Tells the kind of the project in a folder. -/
def detect (argument : Text) : Task Workshop Exit := do
  let files ← Task.ask Workshop.files
  match ← .ofExcept (folder files argument) with
  | .error ended => pure ended
  | .ok path => do
    let kind ← .ofNarrated (Project.detect files path)
    pure ⟨0, kind.name ++ "\n", []⟩

/-- The settings of the project in a folder, or how the command ends if they cannot be read. -/
def config (files : Files) (folder : Path) : Except Failure (Except Exit ProjectConfig) := do
  let path := folder.child ProjectConfig.fileName
  if ← foresee (files.exists? path) then
    match ProjectConfig.load files path with
    | .ok config => pure (.ok config)
    | .error (.octets fault) => .error (.unforeseen (.octets fault))
    | .error .nullInPath => .error (.unforeseen .nullInPath)
    | .error (.badValue fault) => .error (.unforeseen (.badScalar fault))
    | .error fault => pure (.error (.failed fault.message))
  else pure (.ok {})

/-- The order that arguments and settings give. -/
def order (arguments : BuildArguments) (config : ProjectConfig) (folder : Path) : BuildOrder where
  project := arguments.project.getD config.kind.name
  folder := folder
  version := arguments.version.or config.version
  selection := arguments.contract.map .contract

/-- The folder of the cache. -/
def cacheFolder (files : Files) (arguments : BuildArguments) (config : ProjectConfig)
    (folder : Path) : Except Failure Path :=
  match arguments.cacheFolder with
  | some argument => resolve files (.ofText argument)
  | none => .ok (folder.join (.ofText config.cacheFolder))

/-- The text of the results of a build. -/
def resultText (bundles : List Bundle) : Text :=
  (Json.list (bundles.map Bundle.toJson)).print .indented ++ "\n"

/-- Delivers the results of a build: to a file if one is named, or to the standard output. -/
def deliver (output : Option Text) (bundles : List Bundle) : Task Workshop Exit := do
  match output with
  | none => pure ⟨0, resultText bundles, []⟩
  | some argument => do
    let path := Path.ofText argument
    let files ← Task.ask Workshop.files
    match files.write path ((resultText bundles).flatMap Text.octetsOf) with
    | .ok files => do
      Task.change fun w : Workshop => ({ w with files := files }, ())
      let count := Text.ofNat bundles.length
      pure ⟨0, [], "Wrote " ++ count ++ " build result(s) to '" ++ path.text ++ "'.\n"⟩
    | .error (.system fault) =>
      pure (.failed ("cannot write '" ++ path.text ++ "': " ++ fault.message))
    | .error .nullInPath => .fail (.unforeseen .nullInPath)

/-- Builds the project in a folder with its settings. -/
def buildIn (arguments : BuildArguments) (folder : Path) (config : ProjectConfig) :
    Task Workshop Exit := do
  let files ← Task.ask Workshop.files
  let cache ← .ofExcept (cacheFolder files arguments config folder)
  let program := (order arguments config folder).build files
  let backend := Workshop.backend (.folder ⟨cache⟩) config.timeLimit
  match ← (program.run backend).foreseen with
  | .error failure => pure (.failed failure.message)
  | .ok bundles => deliver arguments.output bundles

/-- Builds a project. -/
def build (arguments : BuildArguments) : Task Workshop Exit := do
  let files ← Task.ask Workshop.files
  match ← .ofExcept (folder files arguments.folder) with
  | .error ended => pure ended
  | .ok path =>
    match ← .ofExcept (config files path) with
    | .error ended => pure ended
    | .ok config => buildIn arguments path config

/-- Runs what a line of arguments asks for. -/
def run (arguments : List Text) : Task Workshop Exit :=
  match Request.ofArguments arguments with
  | .explain text => pure ⟨0, text, []⟩
  | .misused usage name fault =>
    pure ⟨2, [], usage ++ name ++ ": error: " ++ fault.message ++ "\n"⟩
  | .detect folder => (detect folder).notable
  | .build arguments =>
    if arguments.verbose then build arguments else (build arguments).notable

end CommandLine

end SolidityBuild
