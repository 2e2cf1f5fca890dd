import SolidityBuild.Json.Printer

/-!
The canonical text of a value: compact, with the keys of every object in code-point order. It does not
depend on the order in which keys stand in the value, at any depth.
-/

set_option autoImplicit false

namespace SolidityBuild

namespace Json

/-- The order of entries by key. -/
def keyLe (a b : Text × Json) : Bool := Text.le a.1 b.1

mutual

/-- The value with the keys of every object in order. -/
def sortKeys : Json → Json
  | list items => list (sortKeysItems items)
  | object entries => object ((sortKeysEntries entries).mergeSort keyLe)
  | j => j

/-- `sortKeys` on every item. -/
def sortKeysItems : List Json → List Json
  | [] => []
  | x :: xs => sortKeys x :: sortKeysItems xs

/-- `sortKeys` on every value of a table. -/
def sortKeysEntries : List (Text × Json) → List (Text × Json)
  | [] => []
  | (k, x) :: xs => (k, sortKeys x) :: sortKeysEntries xs

end

/-- The canonical text of a value. -/
def canonical (j : Json) : Text := j.sortKeys.print .compact

end Json

end SolidityBuild
