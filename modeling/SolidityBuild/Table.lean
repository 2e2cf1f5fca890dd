import SolidityBuild.Text.Basic

/-!
Tables from texts to values that keep the order in which keys came first. Writing under a key that is
already there replaces the value and keeps the key's place.
-/

set_option autoImplicit false

namespace SolidityBuild

/-- Entries in order; the operations below keep the keys distinct. -/
abbrev Table (α : Type) := List (Text × α)

namespace Table

variable {α β : Type}

/-- The keys in order. -/
def keys (t : Table α) : List Text := t.map (·.1)

/-- The values in order. -/
def values (t : Table α) : List α := t.map (·.2)

/-- The value under a key. -/
def get? (t : Table α) (key : Text) : Option α := t.lookup key

/-- Whether a key is there. -/
def has (t : Table α) (key : Text) : Bool := (t.get? key).isSome

/-- The table with `value` under `key`: in the key's place if it has one, else at the end. -/
def put : (t : Table α) → (key : Text) → (value : α) → Table α
  | [], key, value => [(key, value)]
  | (k, v) :: rest, key, value =>
    if k = key then (k, value) :: rest else (k, v) :: put rest key value

/-- The table of a list of entries in which the last value under a key counts. -/
def ofEntries (entries : List (Text × α)) : Table α :=
  entries.foldl (fun t e => put t e.1 e.2) []

/-- The table without some keys. -/
def without (t : Table α) (drop : List Text) : Table α := t.filter fun e => !drop.contains e.1

/-- The table with every value changed. -/
def mapValues (f : α → β) (t : Table α) : Table β := t.map fun e => (e.1, f e.2)

end Table

end SolidityBuild
