import SolidityBuild.Json.Basic
import SolidityBuild.Schema.Fault

/-!
Decoders of documents. A decoder looks at the whole of a value and collects every fault instead of
stopping at the first, so results combine as an applicative functor and not as a monad.
-/

set_option autoImplicit false

namespace SolidityBuild

namespace Schema

/-- The outcome of decoding: a value, or at least one fault. -/
inductive Decoded (α : Type) where
  | value (a : α)
  | faulty (faults : List Fault)
deriving Repr

namespace Decoded

variable {α β : Type}

/-- Faults of both sides are kept, those of the left side first. -/
instance : Applicative Decoded where
  pure := value
  seq f x :=
    match f, x () with
    | value f, value a => value (f a)
    | value _, faulty es => faulty es
    | faulty es, value _ => faulty es
    | faulty es, faulty es' => faulty (es ++ es')

/-- A single fault at the value itself. -/
def fail (complaint : Complaint) : Decoded α := faulty [⟨[], complaint⟩]

/-- The outcome for a part, seen from the whole. -/
def inside (step : PathStep) : Decoded α → Decoded α
  | value a => value a
  | faulty es => faulty (es.map fun e => { e with path := step :: e.path })

/-- The outcome as a document or its rejection. -/
def toExcept (expected : Text) : Decoded α → Except Rejection α
  | value a => .ok a
  | faulty es => .error ⟨expected, es⟩

end Decoded

/-- A decoder of values. -/
abbrev Decoder (α : Type) := Json → Decoded α

namespace Decoder

variable {α : Type}

/-- Every value. -/
def any : Decoder Json := Decoded.value

/-- Texts only; nothing else is turned into one. -/
def text : Decoder Text
  | .text t => .value t
  | _ => .fail .notText

/-- Texts with at least one code point. -/
def nonEmptyText : Decoder Text
  | .text [] => .fail .tooShort
  | .text t => .value t
  | _ => .fail .notText

/-- Null, or what the decoder accepts. -/
def nullable (d : Decoder α) : Decoder (Option α)
  | .null => .value none
  | j => some <$> d j

/-- The decoded items of a list, the first of which has the given place. -/
def itemsFrom (d : Decoder α) : (place : Nat) → List Json → Decoded (List α)
  | _, [] => .value []
  | place, x :: xs =>
    (· :: ·) <$> (d x).inside (.index place) <*> itemsFrom d (place + 1) xs

/-- Lists of what the decoder accepts. -/
def list (d : Decoder α) : Decoder (List α)
  | .list items => itemsFrom d 0 items
  | _ => .fail .notList

/-- The decoded values of a table. -/
def entriesOf (d : Decoder α) : List (Text × Json) → Decoded (Table α)
  | [] => .value []
  | (k, x) :: xs =>
    (fun a rest => (k, a) :: rest) <$> (d x).inside (.key k) <*> entriesOf d xs

/-- Objects as tables of what the decoder accepts. -/
def table (d : Decoder α) : Decoder (Table α)
  | .object entries => entriesOf d entries
  | _ => .fail .notMapping

/-- Objects with any values. -/
def mapping : Decoder (Table Json)
  | .object entries => .value entries
  | _ => .fail .notMapping

end Decoder

/-- The keys of a field: the one it is known by, and a second one under which it is also read. -/
structure Field where
  name : Text
  otherName : Option Text := none

namespace Field

variable {α : Type}

/-- The key under which a table holds the field; the first key wins. -/
def key? (f : Field) (t : Table Json) : Option Text :=
  if t.has f.name then some f.name else f.otherName.filter t.has

/-- The field's value, or `absent` if the table has none. -/
def read (f : Field) (t : Table Json) (absent : Decoded α) (d : Decoder α) : Decoded α :=
  match f.key? t with
  | none => absent
  | some k =>
    match t.get? k with
    | none => absent
    | some j => (d j).inside (.key k)

/-- A field that must be there. -/
def required (f : Field) (t : Table Json) (d : Decoder α) : Decoded α :=
  f.read t ((Decoded.fail .missing).inside (.key f.name)) d

/-- A field that has a default. -/
def withDefault (f : Field) (t : Table Json) (default : α) (d : Decoder α) : Decoded α :=
  f.read t (.value default) d

end Field

/-- The entries of a table that belong to none of the fields, in order. -/
def undeclared (fields : List Field) (t : Table Json) : Table Json :=
  t.without (fields.filterMap fun f => f.key? t)

/-- The document of declared fields, with further entries after them. -/
def document (declared further : Table Json) : Json := .object (declared ++ further)

/-- Objects as models of the given name. -/
def model {α : Type} (name : Text) (read : Table Json → Decoded α) : Decoder α
  | .object entries => read entries
  | _ => .fail (.notModel name)

end Schema

end SolidityBuild
