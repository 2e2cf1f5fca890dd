import SolidityBuild.Json.Basic
import SolidityBuild.Number.Shortest
import SolidityBuild.Text.Quoted

/-!
How a message shows a value that it does not accept: a text as it is, and inside lists and objects in
quotes.
-/

set_option autoImplicit false

namespace SolidityBuild

namespace Json

mutual

/-- A value as it is shown inside a list or an object. -/
def displayInside : Json → Text
  | null => "None"
  | bool b => if b then "True" else "False"
  | int n => Text.ofInt n
  | float x => x.shortestText "nan" "inf"
  | text t => t.quoted
  | list items => "[" ++ displayItems items ++ "]"
  | object entries => "\x7b" ++ displayEntries entries ++ "\x7d"

/-- Items with commas between them. -/
def displayItems : List Json → Text
  | [] => []
  | [x] => displayInside x
  | x :: xs => displayInside x ++ ", " ++ displayItems xs

/-- Entries with commas between them. -/
def displayEntries : List (Text × Json) → Text
  | [] => []
  | [(k, x)] => k.quoted ++ ": " ++ displayInside x
  | (k, x) :: xs => k.quoted ++ ": " ++ displayInside x ++ ", " ++ displayEntries xs

end

/-- A value as a message shows it. -/
def display : Json → Text
  | text t => t
  | j => displayInside j

end Json

end SolidityBuild
