import SolidityBuild.Yaml.Graph
import SolidityBuild.Yaml.Value

/-!
The value of a document, one level deep: the entries of the outermost mapping, or the outermost value.
The whole document is checked nevertheless, level by level from the outside: every scalar must have a
value, every collection must be of the kind that its tag asks for, and no key may be a collection. Under
the merge key stand mappings whose entries a mapping takes over, in front of its own.
-/

set_option autoImplicit false

namespace SolidityBuild

namespace Yaml

/-- The kinds of collections. -/
inductive CollectionKind where
  | sequence
  | mapping
  | set
  /-- A sequence of mappings of one entry each. -/
  | pairs
deriving DecidableEq, Repr

/-- The kind of collection that a tag asks for. -/
def collectionKind? (tag : Text) : Option CollectionKind :=
  (([("seq", .sequence), ("map", .mapping), ("set", .set), ("omap", .pairs), ("pairs", .pairs)] :
    Table CollectionKind).find? fun e => ScalarTag.standard ++ e.1 = tag).map (·.2)

namespace Graph

/-- A node by its number. -/
def node (g : Graph) (n : Nat) : Node := g.getD n default

/-- The tag that a node is read by as a key: the mark for a default value is an ordinary text there. -/
def keyTag (g : Graph) (n : Nat) : Text :=
  let tag := (g.node n).tag
  if tag = ScalarTag.value.full then ScalarTag.text.full else tag

/-- The text of a scalar node; a mapping may give one under the mark for a default value. -/
def scalarText? (g : Graph) : (fuel : Nat) → (n : Nat) → Option Text
  | 0, _ => none
  | fuel + 1, n =>
    match (g.node n).content with
    | .scalar text => some text
    | .sequence _ => none
    | .mapping entries =>
      match entries.find? fun e => (g.node e.1).tag = ScalarTag.value.full with
      | some e => scalarText? g fuel e.2
      | none => none

/-- The value of a node read by a tag; that of a collection says only that it is one. -/
def valueBy (g : Graph) (tag : Text) (n : Nat) : Except Fault Value :=
  match collectionKind? tag with
  | some _ => .ok .collection
  | none =>
    match g.scalarText? (g.size + 1) n with
    | some text => readScalar tag text
    | none =>
      match readScalar tag [] with
      | .error (.malformed .unknownTag) => malformed .unknownTag
      | _ => malformed .wrongKind

/-- The value of a node. -/
def value (g : Graph) (n : Nat) : Except Fault Value := g.valueBy (g.node n).tag n

/-- The value of a node that is a key. -/
def key (g : Graph) (n : Nat) : Except Fault Value := do
  match ← g.valueBy (g.keyTag n) n with
  | .collection => malformed .unhashableKey
  | value => pure value

/-- Whether an entry stands under the merge key. -/
def isMerge (g : Graph) (e : Nat × Nat) : Bool := (g.node e.1).tag = ScalarTag.merge.full

mutual

/-- The entries of a mapping with those it takes over in front; `pending` are the mappings around it
that are being put together. -/
def mergedEntries (g : Graph) (pending : List Nat) : (fuel : Nat) → (n : Nat) →
    Except Fault (List (Nat × Nat))
  | 0, _ => .ok []
  | fuel + 1, n =>
    match (g.node n).content with
    | .mapping entries =>
      if pending.contains n then .ok (entries.filter fun e => !g.isMerge e)
      else do
        let taken ← (entries.filter g.isMerge).mapM fun e => mergeSource g (n :: pending) fuel e.2
        pure (taken.flatten ++ entries.filter fun e => !g.isMerge e)
    | _ => malformed .badMerge

/-- The entries that the value of a merge key gives: those of a mapping, or of a sequence of mappings,
where an earlier one comes later and so counts. -/
def mergeSource (g : Graph) (pending : List Nat) : (fuel : Nat) → (n : Nat) →
    Except Fault (List (Nat × Nat))
  | 0, _ => .ok []
  | fuel + 1, n =>
    match (g.node n).content with
    | .mapping _ => mergedEntries g pending fuel n
    | .sequence items => do
      let taken ← items.mapM fun item => mergedEntries g pending fuel item
      pure taken.reverse.flatten
    | .scalar _ => malformed .badMerge

end

/-- The entries of a mapping, merged. -/
def entries (g : Graph) (n : Nat) : Except Fault (List (Nat × Nat)) :=
  match (g.node n).content with
  | .mapping _ => g.mergedEntries [] (2 * g.size + 2) n
  | _ => malformed .wrongKind

/-- The only entry of a mapping. -/
def singleEntry (g : Graph) (n : Nat) : Except Fault (Nat × Nat) :=
  match (g.node n).content with
  | .mapping [e] => .ok e
  | _ => malformed .wrongKind

/-- Checks a collection; the result are the nodes that it holds, in order. -/
def checkCollection (g : Graph) (kind : CollectionKind) (n : Nat) : Except Fault (List Nat) :=
  match kind, (g.node n).content with
  | .sequence, .sequence items => do
    let _ ← items.mapM g.value
    pure items
  | .sequence, _ => malformed .wrongKind
  | .pairs, .sequence items => do
    let held ← items.mapM fun item => do
      let (key, value) ← g.singleEntry item
      let _ ← g.value key
      let _ ← g.value value
      pure [key, value]
    pure held.flatten
  | .pairs, _ => malformed .wrongKind
  | _, _ => do
    let entries ← g.entries n
    let held ← entries.mapM fun (key, value) => do
      let _ ← g.key key
      let _ ← g.value value
      pure [key, value]
    pure held.flatten

/-- The collections among nodes that are not in `seen`, each once, with their kinds. -/
def freshCollections (g : Graph) (seen : List Nat) : List Nat → List (Nat × CollectionKind)
  | [] => []
  | n :: rest =>
    match collectionKind? (g.node n).tag with
    | some kind =>
      if seen.contains n then freshCollections g seen rest
      else (n, kind) :: freshCollections g (n :: seen) rest
    | none => freshCollections g seen rest

/-- Checks collections and, level by level, those that they hold. Every level but the last one has a
node that was not seen before. -/
def checkLevels (g : Graph) : (fuel : Nat) → (seen : List Nat) → List (Nat × CollectionKind) →
    Except Fault Unit
  | 0, _, _ => .ok ()
  | _ + 1, _, [] => .ok ()
  | fuel + 1, seen, level => do
    let seen := level.map (·.1) ++ seen
    let held ← level.mapM fun (n, kind) => g.checkCollection kind n
    checkLevels g fuel seen (g.freshCollections seen held.flatten)

end Graph

/-- A document, one level deep. -/
inductive Document where
  | empty
  | mapping (entries : List (Value × Value))
  | other (value : Value)

namespace Document

/-- The document whose outermost node has a number. -/
def ofNode (g : Graph) (root : Nat) : Except Fault Document := do
  match ← g.value root with
  | .null => pure empty
  | .collection => do
    g.checkLevels (g.size + 1) [] (g.freshCollections [] [root])
    match collectionKind? (g.node root).tag with
    | some .mapping => do
      let entries ← g.entries root
      mapping <$> entries.mapM fun (key, value) => do pure (← g.key key, ← g.value value)
    | _ => pure (other .collection)
  | value => pure (other value)

/-- The document that a text spells. -/
def ofText (t : Text) : Except Fault Document := do
  match ← Graph.ofText t with
  | (_, none) => pure empty
  | (g, some root) => ofNode g root

/-- The last value under a text among the entries of a mapping. -/
def get? (entries : List (Value × Value)) (key : Text) : Option Value :=
  (entries.reverse.find? fun e => e.1 = .text key).map (·.2)

end Document

end Yaml

end SolidityBuild
