import SolidityBuild.Yaml.Lexer
import SolidityBuild.Yaml.ScalarTag

/-!
The nodes of a YAML document. An alias stands for the node that it names, which may even be a node that
contains the alias, so nodes refer to each other by number and the document is a graph. Reading the
tokens numbers the nodes in the order in which they start.
-/

set_option autoImplicit false

namespace SolidityBuild

namespace Yaml

/-- What a node holds. -/
inductive Content where
  | scalar (text : Text)
  | sequence (items : List Nat)
  | mapping (entries : List (Nat × Nat))
deriving Inhabited, Repr

/-- A node: its tag in full, and what it holds. -/
structure Node where
  tag : Text
  content : Content
deriving Inhabited, Repr

/-- The nodes of a document. -/
abbrev Graph := Array Node

/-- A document that is being read. -/
structure Reader where
  tokens : List Token
  nodes : Graph := #[]
  anchors : Table Nat := []
  handles : Table Text := []

/-- A step of reading. -/
abbrev Read (α : Type) := StateT Reader (Except Fault) α

namespace Reader

/-- The handles that every document knows. -/
def defaultHandles : Table Text := [("!", "!"), ("!!", "tag:yaml.org,2002:")]

/-- Fails. -/
def fail {α : Type} (how : Malformation) : Read α := throw (.malformed how)

/-- The next token; a broken one is a fault. -/
def peek : Read Token := do
  match (← get).tokens with
  | [] => pure .streamEnd
  | .broken fault :: _ => throw fault
  | t :: _ => pure t

/-- Goes behind the next token. -/
def skip : Read Unit := modify fun r => { r with tokens := r.tokens.tail }

/-- Goes behind the next token if it is the given one, and says whether it was. -/
def accept (t : Token) : Read Bool := do
  if (← peek) = t then
    skip
    pure true
  else pure false

/-- Goes behind the comma in front of an entry in brackets or braces, and says whether it was there; the
first entry needs none. -/
def readSeparator (first : Bool) : Read Bool := if first then pure true else accept .flowEntry

/-- Whether the next token is one of some. -/
def isNext (ts : List Token) : Read Bool := do pure (ts.contains (← peek))

/-- A new node. -/
def newNode (node : Node) : Read Nat := do
  let n := (← get).nodes.size
  modify fun r => { r with nodes := r.nodes.push node }
  pure n

/-- Gives a node its content. -/
def setContent (n : Nat) (content : Content) : Read Unit :=
  modify fun r => { r with nodes := r.nodes.modify n fun node => { node with content } }

/-- The empty scalar that stands where a node is missing. -/
def emptyNode : Read Nat := newNode ⟨ScalarTag.null.full, .scalar []⟩

/-- Names a node. -/
def setAnchor (anchor : Option Text) (n : Nat) : Read Unit :=
  match anchor with
  | none => pure ()
  | some name => modify fun r => { r with anchors := r.anchors.put name n }

/-- The properties of a node: an anchor and a tag, in either order, each at most once. -/
structure Properties where
  anchor : Option Text := none
  /-- The tag in full, or the lone mark, or nothing. -/
  tag : Option Text := none

/-- The lone mark, which leaves the tag to the kind of the node. -/
def loneMark : Text := "!"

/-- An anchor, if there is one. -/
def readAnchor : Read (Option Text) := do
  match ← peek with
  | .anchor name => do
    skip
    pure (some name)
  | _ => pure none

/-- A tag as it is written, if there is one. -/
def readTag : Read (Option (Option Text × Text)) := do
  match ← peek with
  | .tag handle suffix => do
    skip
    pure (some (handle, suffix))
  | _ => pure none

/-- A written tag in full. -/
def fullTag (handle : Option Text) (suffix : Text) : Read Text := do
  match handle with
  | none => pure suffix
  | some handle =>
    match Table.get? (← get).handles handle with
    | some lead => pure (lead ++ suffix)
    | none => fail .unknownHandle

/-- The properties of a node. -/
def readProperties : Read Properties := do
  let first ← readAnchor
  let written ← readTag
  let anchor ← match first, written with
    | none, some _ => readAnchor
    | _, _ => pure first
  match written with
  | none => pure ⟨anchor, none⟩
  | some (handle, suffix) =>
    let tag ← fullTag handle suffix
    pure ⟨anchor, some tag⟩

/-- An anchor names one node of a document only. -/
def checkAnchor (anchor : Option Text) : Read Unit := do
  match anchor with
  | none => pure ()
  | some name => if (← get).anchors.has name then fail .duplicateAnchor else pure ()

namespace Properties

/-- Whether the tag is left to the node. -/
def isOpen (p : Properties) : Bool := p.tag.isNone || p.tag = some loneMark

/-- The tag of a scalar: the one it has, or the one that a plain text stands for. -/
def scalarTag (p : Properties) (plain : Bool) (text : Text) : Text :=
  match p.tag with
  | none => (if plain then ScalarTag.ofPlain text else .text).full
  | some tag => if tag = loneMark then (ScalarTag.ofPlain text).full else tag

/-- The tag of a collection. -/
def collectionTag (p : Properties) (default : Text) : Text :=
  match p.tag with
  | none => default
  | some tag => if tag = loneMark then default else tag

end Properties

/-- The tags of collections without one. -/
def sequenceTag : Text := "tag:yaml.org,2002:seq"
def mappingTag : Text := "tag:yaml.org,2002:map"

/-- A scalar node. -/
def scalarNode (p : Properties) (plain : Bool) (text : Text) : Read Nat := do
  checkAnchor p.anchor
  let n ← newNode ⟨p.scalarTag plain text, .scalar text⟩
  setAnchor p.anchor n
  pure n

/-- A collection node whose content is read by `items`. -/
def collectionNode (p : Properties) (tag : Text) (content : Read Content) : Read Nat := do
  checkAnchor p.anchor
  let n ← newNode ⟨p.collectionTag tag, .sequence []⟩
  setAnchor p.anchor n
  setContent n (← content)
  pure n

/-- Where a node stands, which says what it may be. -/
inductive Place where
  | flow
  | block
  /-- Behind a key of a block mapping, where a sequence need not be indented. -/
  | blockValue
deriving DecidableEq, Repr

mutual

/-- Reads a node. Every call inside spends one unit of fuel. -/
def readNode (place : Place) : (fuel : Nat) → Read Nat
  | 0 => fail .missingContent
  | fuel + 1 => do
    match ← peek with
    | .aliasOf name => do
      skip
      match Table.get? (← get).anchors name with
      | some n => pure n
      | none => fail .unknownAlias
    | _ => do
      let p ← readProperties
      let inBlock := place ≠ .flow
      match ← peek with
      | .scalar plain text => do
        skip
        scalarNode p plain text
      | .flowSequenceStart => do
        skip
        collectionNode p sequenceTag do pure (.sequence (← readFlowItems true fuel))
      | .flowMappingStart => do
        skip
        collectionNode p mappingTag do pure (.mapping (← readFlowPairs true fuel))
      | t =>
        if t = .entry ∧ place = .blockValue then
          collectionNode p sequenceTag do pure (.sequence (← readLooseItems fuel))
        else if t = .sequenceStart ∧ inBlock then do
          skip
          collectionNode p sequenceTag do pure (.sequence (← readItems fuel))
        else if t = .mappingStart ∧ inBlock then do
          skip
          collectionNode p mappingTag do pure (.mapping (← readPairs fuel))
        else if p.anchor.isSome ∨ p.tag.isSome then do
          checkAnchor p.anchor
          let tag := if p.isOpen then ScalarTag.null.full else p.tag.getD []
          let n ← newNode ⟨tag, .scalar []⟩
          setAnchor p.anchor n
          pure n
        else fail .missingContent

/-- Reads a node, or takes the empty scalar if one of the tokens `ends` comes next. -/
def readNodeUnless (ends : List Token) (place : Place) : (fuel : Nat) → Read Nat
  | 0 => fail .missingContent
  | fuel + 1 => do
    if ← isNext ends then emptyNode else readNode place fuel

/-- Reads the entries of a block sequence. -/
def readItems : (fuel : Nat) → Read (List Nat)
  | 0 => fail .missingContent
  | fuel + 1 => do
    if ← accept .entry then
      let item ← readNodeUnless [.entry, .blockEnd] .block fuel
      let rest ← readItems fuel
      pure (item :: rest)
    else if ← accept .blockEnd then pure []
    else fail .missingBlockEnd

/-- Reads the entries of a block sequence that is not indented. -/
def readLooseItems : (fuel : Nat) → Read (List Nat)
  | 0 => fail .missingContent
  | fuel + 1 => do
    if ← accept .entry then
      let item ← readNodeUnless [.entry, .key, .value, .blockEnd] .block fuel
      let rest ← readLooseItems fuel
      pure (item :: rest)
    else pure []

/-- Reads the entries of a block mapping. -/
def readPairs : (fuel : Nat) → Read (List (Nat × Nat))
  | 0 => fail .missingContent
  | fuel + 1 => do
    if ← accept .key then
      let ends : List Token := [.key, .value, .blockEnd]
      let key ← readNodeUnless ends .blockValue fuel
      let value ← if ← accept .value then readNodeUnless ends .blockValue fuel else emptyNode
      let rest ← readPairs fuel
      pure ((key, value) :: rest)
    else if ← accept .blockEnd then pure []
    else fail .missingBlockEnd

/-- Reads the entries of a sequence in brackets; an entry may be a mapping of one pair. -/
def readFlowItems (first : Bool) : (fuel : Nat) → Read (List Nat)
  | 0 => fail .missingContent
  | fuel + 1 => do
    if ← accept .flowSequenceEnd then pure []
    else if !(← readSeparator first) then fail .missingSeparator
    else if ← accept .key then
      let n ← newNode ⟨mappingTag, .mapping []⟩
      let key ← readNodeUnless [.value, .flowEntry, .flowSequenceEnd] .flow fuel
      let value ← if ← accept .value then readNodeUnless [.flowEntry, .flowSequenceEnd] .flow fuel
        else emptyNode
      setContent n (.mapping [(key, value)])
      let rest ← readFlowItems false fuel
      pure (n :: rest)
    else if ← accept .flowSequenceEnd then pure []
    else do
      let item ← readNode .flow fuel
      let rest ← readFlowItems false fuel
      pure (item :: rest)

/-- Reads the entries of a mapping in braces; an entry may be a key alone. -/
def readFlowPairs (first : Bool) : (fuel : Nat) → Read (List (Nat × Nat))
  | 0 => fail .missingContent
  | fuel + 1 => do
    if ← accept .flowMappingEnd then pure []
    else if !(← readSeparator first) then fail .missingSeparator
    else if ← accept .key then
      let key ← readNodeUnless [.value, .flowEntry, .flowMappingEnd] .flow fuel
      let value ← if ← accept .value then readNodeUnless [.flowEntry, .flowMappingEnd] .flow fuel
        else emptyNode
      let rest ← readFlowPairs false fuel
      pure ((key, value) :: rest)
    else if ← accept .flowMappingEnd then pure []
    else do
      let key ← readNode .flow fuel
      let value ← emptyNode
      let rest ← readFlowPairs false fuel
      pure ((key, value) :: rest)

end

/-- Reads the directives in front of a document. -/
def readDirectives : (fuel : Nat) → (versioned : Bool) → (handles : Table Text) → Read (Table Text)
  | 0, _, _ => fail .badDirective
  | fuel + 1, versioned, handles => do
    match ← peek with
    | .directive d => do
      skip
      match d with
      | .version major =>
        if versioned || major ≠ 1 then fail .badDirective else readDirectives fuel true handles
      | .tag handle lead =>
        if handles.has handle then fail .badDirective
        else readDirectives fuel versioned (handles.put handle lead)
      | .other => readDirectives fuel versioned handles
    | _ => pure handles

/-- Goes behind marks that end documents. -/
def skipEnds : (fuel : Nat) → Read Unit
  | 0 => pure ()
  | fuel + 1 => do if ← accept .documentEnd then skipEnds fuel else pure ()

/-- Fuel for the tokens at hand: a node spends at most four units on each. -/
def fuel : Read Nat := do pure (4 * (← get).tokens.length + 8)

/-- Reads the start of a document with a mark, after its directives; false at the end of the stream. -/
def readStart : Read Bool := do
  let fuel ← fuel
  skipEnds fuel
  if ← isNext [.streamEnd] then pure false
  else
    let handles ← readDirectives fuel false []
    if ← accept .documentStart then
      let handles := defaultHandles.foldl (fun t (handle, lead) =>
        if Table.has t handle then t else Table.put t handle lead) handles
      modify fun r => { r with handles }
      pure true
    else fail .missingDocumentStart

/-- Reads the one document of a stream: the number of its node, or nothing for an empty stream. -/
def readDocument : Read (Option Nat) := do
  let fuel ← fuel
  let root ←
    match ← peek with
    | .streamEnd => pure none
    | .documentStart | .directive _ => do
      if ← readStart then
        match ← peek with
        | .documentStart | .directive _ | .documentEnd | .streamEnd => some <$> emptyNode
        | _ => some <$> readNode .block fuel
      else pure none
    | _ => do
      modify fun r => { r with handles := defaultHandles }
      some <$> readNode .block fuel
  match root with
  | none => pure none
  | some root => do
    let _ ← accept .documentEnd
    if ← readStart then fail .severalDocuments else pure (some root)

end Reader

/-- The nodes of the one document of a text, and the number of the outermost, if there is a document. -/
def Graph.ofText (t : Text) : Except Fault (Graph × Option Nat) :=
  if t.all isPermitted then
    (Reader.readDocument.run { tokens := tokens t }).map fun (root, r) => (r.nodes, root)
  else malformed .unprintable

end Yaml

end SolidityBuild
