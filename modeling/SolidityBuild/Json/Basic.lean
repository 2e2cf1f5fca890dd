import SolidityBuild.Table
import SolidityBuild.Number.Binary64

/-!
JSON values. Whole numbers are unbounded and distinct from floating-point ones, objects keep the
order of their keys, and texts may hold lone surrogates, so a value determines its printed text.
Besides the equality of values there is a looser one, under which numbers and truth values count by
their numeric value and the order of keys does not count.
-/

set_option autoImplicit false

namespace SolidityBuild

/-- A JSON value. -/
inductive Json where
  | null
  | bool (value : Bool)
  | int (value : Int)
  | float (value : Binary64)
  | text (value : Text)
  | list (items : List Json)
  | object (entries : List (Text × Json))
deriving Inhabited, Repr

namespace Json

instance : Coe Text Json := ⟨Json.text⟩

/-- The entries of an object. -/
def entries? : Json → Option (Table Json)
  | object entries => some entries
  | _ => none

/-- The items of a list. -/
def items? : Json → Option (List Json)
  | list items => some items
  | _ => none

/-- The text of a text value. -/
def text? : Json → Option Text
  | text t => some t
  | _ => none

/-- The value under a key of an object. -/
def get? (j : Json) (key : Text) : Option Json := j.entries?.bind fun t => t.get? key

/-- Null, false, zero and what has no content count as empty. -/
def isEmpty : Json → Bool
  | null => true
  | bool b => !b
  | int n => n = 0
  | float x => x.units? = some 0
  | text t => t.isEmpty
  | list items => items.isEmpty
  | object entries => entries.isEmpty

/-- The two orders of keys and the three kinds of numbers aside, equality of values that are not
containers. Not-a-number equals itself. -/
def scalarEq : Json → Json → Bool
  | null, null => true
  | text a, text b => a = b
  | a, b =>
    match whole? a, whole? b with
    | some m, some n => m = n
    | some m, none => floatOf? b = some (some m)
    | none, some n => floatOf? a = some (some n)
    | none, none =>
      match a, b with
      | float x, float y => x.numEq y
      | _, _ => false
where
  /-- The whole number that a truth value or a whole number is. -/
  whole? : Json → Option Int
    | bool b => some (if b then 1 else 0)
    | int n => some n
    | _ => none
  /-- The whole number that a floating-point value equals, if it equals one. -/
  floatOf? : Json → Option (Option Int)
    | float x => some x.toInt?
    | _ => none

mutual

/-- Looser equality: numbers and truth values by numeric value, objects as mappings. -/
def looseEq : Json → Json → Bool
  | list xs, list ys => looseEqItems xs ys
  | object xs, object ys => xs.length = ys.length && looseEqEntries xs ys
  | a, b => scalarEq a b

/-- Looser equality of lists, item by item. -/
def looseEqItems : List Json → List Json → Bool
  | [], [] => true
  | x :: xs, y :: ys => looseEq x y && looseEqItems xs ys
  | _, _ => false

/-- Whether the second table has, under every key of the first, a loosely equal value. -/
def looseEqEntries : List (Text × Json) → List (Text × Json) → Bool
  | [], _ => true
  | (k, x) :: xs, ys =>
    (match ys.lookup k with
      | some y => looseEq x y
      | none => false) && looseEqEntries xs ys

end

mutual

/-- The value with every number that is not finite replaced by null. -/
def finiteOnly : Json → Json
  | float x => if x.isFinite then float x else null
  | list items => list (finiteOnlyItems items)
  | object entries => object (finiteOnlyEntries entries)
  | j => j

/-- `finiteOnly` on every item. -/
def finiteOnlyItems : List Json → List Json
  | [] => []
  | x :: xs => finiteOnly x :: finiteOnlyItems xs

/-- `finiteOnly` on every value of a table. -/
def finiteOnlyEntries : List (Text × Json) → List (Text × Json)
  | [] => []
  | (k, x) :: xs => (k, finiteOnly x) :: finiteOnlyEntries xs

end

end Json

end SolidityBuild
