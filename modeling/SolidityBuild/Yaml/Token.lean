import SolidityBuild.Yaml.Fault

/-!
The tokens of a YAML text: indicators, the block structure that indentation stands for, properties of
nodes, and scalars. The last token ends the stream, or says why the text cannot be read any further, so
that whoever reads the tokens meets a fault where it arises.
-/

set_option autoImplicit false

namespace SolidityBuild

namespace Yaml

/-- An instruction in front of a document. -/
inductive Directive where
  | version (major : Nat)
  | tag (handle lead : Text)
  | other
deriving DecidableEq, Repr

/-- A token. -/
inductive Token where
  | directive (directive : Directive)
  | documentStart
  | documentEnd
  | sequenceStart
  | mappingStart
  | blockEnd
  | flowSequenceStart
  | flowSequenceEnd
  | flowMappingStart
  | flowMappingEnd
  | flowEntry
  | entry
  | key
  | value
  | aliasOf (name : Text)
  | anchor (name : Text)
  /-- A tag: a handle, unless the tag is written in full, and what follows it. -/
  | tag (handle : Option Text) (suffix : Text)
  | scalar (plain : Bool) (text : Text)
  | streamEnd
  | broken (fault : Fault)
deriving DecidableEq, Repr

end Yaml

end SolidityBuild
