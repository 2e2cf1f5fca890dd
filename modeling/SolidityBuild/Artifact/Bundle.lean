import SolidityBuild.Artifact.Artifacts

/-!
What a build delivers for one run of the compiler: the artifacts, the syntax trees, the sources as they
were compiled, what was derived from them, and the version and request that it all came from.
-/

set_option autoImplicit false

namespace SolidityBuild

open Schema

/-- A source as it was compiled: the number the compiler gave it, and its text. -/
structure CompiledSource where
  id : Option Int := none
  text : Text
deriving DecidableEq, Repr

namespace CompiledSource

/-- Reads a compiled source. -/
def decoder : Decoder CompiledSource :=
  model "SourceRecord" fun t =>
    CompiledSource.mk <$>
      Field.withDefault ⟨"id", none⟩ t none (Decoder.nullable Decoder.integer) <*>
      Field.required ⟨"source", none⟩ t Decoder.text

/-- The compiled source that a document spells, or why it spells none. -/
def ofJson (j : Json) : Except Rejection CompiledSource := (decoder j).toExcept "SourceRecord"

/-- The document of a compiled source. -/
def toJson (s : CompiledSource) : Json :=
  .object [("id", SourceReport.idJson s.id), ("source", .text s.text)]

end CompiledSource

/-- Where a bundle comes from: the version that was asked for and the request that was made. -/
structure Provenance where
  version : Text
  request : Table Json

namespace Provenance

/-- Reads a provenance. -/
def decoder : Decoder Provenance :=
  model "CompilerArgs" fun t =>
    Provenance.mk <$>
      Field.required ⟨"version", none⟩ t Decoder.text <*>
      Field.required ⟨"compiler_json", none⟩ t Decoder.mapping

/-- The document of a provenance; numbers that are not finite become null. -/
def toJson (p : Provenance) : Json :=
  Json.finiteOnly (.object [("version", .text p.version), ("compiler_json", .object p.request)])

end Provenance

/-- Everything taken from one run of the compiler. -/
structure Bundle where
  /-- The processed syntax trees, or the raw ones by path. -/
  ast : Json := .null
  sources : Table CompiledSource := []
  artifacts : Artifacts
  /-- What an extractor derived from the syntax trees. -/
  invariants : Json := .null
  provenance : Provenance
  remappings : Option (List Text) := none

namespace Bundle

/-- The name of a bundle in rejections. -/
def documentName : Text := "BuildResult"

/-- Reads a bundle. -/
def decoder : Decoder Bundle :=
  model documentName fun t =>
    Bundle.mk <$>
      Field.withDefault ⟨"ast", none⟩ t .null Decoder.any <*>
      Field.withDefault ⟨"sources", none⟩ t [] (Decoder.table CompiledSource.decoder) <*>
      Field.required ⟨"artifacts", none⟩ t Artifacts.decoder <*>
      Field.withDefault ⟨"invariants", none⟩ t .null Decoder.any <*>
      Field.required ⟨"compiler_args", none⟩ t Provenance.decoder <*>
      Field.withDefault ⟨"remappings", none⟩ t none
        (Decoder.nullable (Decoder.list Decoder.text))

/-- The bundle that a document spells, or why it spells none. -/
def ofJson (j : Json) : Except Rejection Bundle := (decoder j).toExcept documentName

/-- The flat document of a bundle. Syntax trees, artifacts and invariants are shown as they are; in the
sources and the provenance, numbers that are not finite are null. -/
def toJson (b : Bundle) : Json :=
  .object [
    ("ast", b.ast),
    ("sourcemap", b.artifacts.sourceMapJson),
    ("sources", .object (b.sources.mapValues CompiledSource.toJson)),
    ("bytecode", b.artifacts.creationJson),
    ("runtime_bytecode", b.artifacts.runtimeJson),
    ("abi", b.artifacts.abiJson),
    ("invariants", b.invariants),
    ("compiler_args", b.provenance.toJson),
    ("remappings", match b.remappings with
      | some remappings => .list (remappings.map .text)
      | none => .null)]

end Bundle

end SolidityBuild
