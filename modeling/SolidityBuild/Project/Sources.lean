import SolidityBuild.Cache.Store
import SolidityBuild.Document.CompileRequest
import SolidityBuild.Files.Search
import SolidityBuild.Narrated
import SolidityBuild.Project.Kind

/-!
What the folder of a project holds: its kind, told by marker files at its top; its sources at any depth,
in the order of their paths; and the remappings of imports that are listed in a file of their own.
-/

set_option autoImplicit false

namespace SolidityBuild

/-- A fault of looking at a path where nothing foresees it. -/
def Files.foresee {α : Type} : Except FileFault α → Narrated α
  | .ok a => pure a
  | .error fault => .ofExcept (.error (.unforeseen fault.defect))

namespace Project

/-- What the names of the files of one kind of project end with. -/
def forgeMarkers : List Text := ["forge.toml", "foundry.toml"]

/-- What the names of the files of the other kind end with. -/
def hardhatMarkers : List Text := ["hardhat.config.js", "hardhat.config.ts"]

/-- Whether a name ends with one of the markers, a line feed at its very end not counted. -/
def isMarked (markers : List Text) (name : Text) : Bool :=
  let bare := if name.getLast? = some 10 then name.dropLast else name
  markers.any fun marker => Text.endsWith name marker || Text.endsWith bare marker

/-- The kind of project that names in a folder tell. -/
def kindOfNames? (names : List Text) : Option ProjectKind :=
  if names.any (isMarked forgeMarkers) then some .forge
  else if names.any (isMarked hardhatMarkers) then some .hardhat
  else none

/-- The kind of the project in a folder; without any marker it is a plain folder of sources. -/
def detect (files : Files) (folder : Path) : Narrated ProjectKind := do
  let isFolder ← Files.foresee (files.isFolder folder)
  let names ← if isFolder then Files.foresee (files.readFolder folder) else pure []
  match kindOfNames? names with
  | some kind => pure kind
  | none =>
    .tell [⟨.warning, "unknown_project_layout",
      [("task_dir", .text folder.text), ("fallback", .text ProjectKind.folder.name)]⟩]
    pure .folder

/-- The text of a file of a project. -/
def readText (files : Files) (path : Path) : Except Failure Text :=
  match files.readText path with
  | .ok text => .ok text
  | .error (.file (.system fault)) => .error (.sourceUnreadable ⟨path.text, .system fault⟩)
  | .error (.file .nullInPath) => .error (.unforeseen .nullInPath)
  | .error (.octets fault) => .error (.sourceUnreadable ⟨path.text, .octets fault⟩)

/-- What the names of sources end with. -/
def sourceSuffix : Text := ".sol"

/-- The sources among the entries at the given places below a folder; empty ones are told and left out. -/
def sourcesAt (files : Files) (folder : Path) : List (List Text) → Narrated (Table SourceText)
  | [] => pure []
  | place :: rest => do
    let path : Path := ⟨folder.slashes, folder.parts ++ place⟩
    let key := Text.join [Path.separator] place
    if ← Files.foresee (files.isFile path) then
      match ← .ofExcept (readText files path) with
      | [] =>
        .tell [⟨.warning, "empty_source_skipped", [("path", .text key)]⟩]
        sourcesAt files folder rest
      | content => do
        let sources ← sourcesAt files folder rest
        pure ((key, ⟨content, []⟩) :: sources)
    else sourcesAt files folder rest

/-- The sources of the project in a folder, by their path below it. -/
def sources (files : Files) (folder : Path) : Narrated (Table SourceText) := do
  let places ← Files.foresee (files.findBelow folder sourceSuffix)
  sourcesAt files folder places

/-- The name of the file that lists remappings. -/
def remappingsName : Text := "remappings.txt"

/-- The remappings that a text lists: its lines, without blanks around them and without blank lines. -/
def remappingsOfText (t : Text) : List Text := (t.lines.map Text.trim).filter fun line => !line.isEmpty

/-- The remappings of the project in a folder. -/
def remappings (files : Files) (folder : Path) : Narrated (List Text) := do
  let path := folder.child remappingsName
  if ← Files.foresee (files.isFile path) then
    let text ← .ofExcept (readText files path)
    pure (remappingsOfText text)
  else pure []

end Project

end SolidityBuild
