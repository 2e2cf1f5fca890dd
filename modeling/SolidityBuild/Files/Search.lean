import SolidityBuild.Files.Basic

/-!
Finding files by the end of their name. Paths found are in the order of their parts, each part compared
by code points, so that a folder's entries stand together. Links to folders are found but not entered.
-/

set_option autoImplicit false

namespace SolidityBuild

namespace Path

/-- The order of paths by their parts. -/
def partsLe : List Text → List Text → Bool := lexicographic Text.le

end Path

namespace Files

/-- The locations below a folder, relative to it. -/
def below (files : Files) (folder : Location) : List Location :=
  files.entries.filterMap fun (location, _) =>
    if folder.isPrefixOf location ∧ location ≠ folder then some (location.drop folder.length)
    else none

/-- Whether the last name of a location ends with `tail`. -/
def nameEndsWith (tail : Text) (location : Location) : Bool :=
  match location.getLast? with
  | some name => Text.endsWith name tail
  | none => false

/-- The paths, relative to a folder and at any depth below it, of the entries whose name ends with
`tail`, in order. Nothing is found where there is no folder. -/
def findBelow (files : Files) (p : Path) (tail : Text) : Except FileFault (List (List Text)) := do
  if ← files.isFolder p then
    let spot ← files.spot true p
    pure (((files.below spot.location).filter (nameEndsWith tail)).mergeSort Path.partsLe)
  else pure []

/-- The paths of the entries of a folder whose name ends with `tail`, in order. -/
def findIn (files : Files) (p : Path) (tail : Text) : Except FileFault (List Path) := do
  if ← files.isFolder p then
    let names ← files.readFolder p
    pure (((names.filter fun name => name.endsWith tail).mergeSort Text.le).map p.child)
  else pure []

end Files

end SolidityBuild
