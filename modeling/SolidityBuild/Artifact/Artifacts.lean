import SolidityBuild.Artifact.Selection
import SolidityBuild.Document.CompileReport
import SolidityBuild.Failure

/-!
The artifacts of contracts: creation code, runtime code, interface description and source map, either
of one contract or of all of them, as four matrices with a row for every path and a cell for every
contract of that path. `extract` takes them out of a report.
-/

set_option autoImplicit false

namespace SolidityBuild

open Schema

/-- A table of tables: the value at a path and a name. -/
abbrev Matrix (α : Type) := Table (Table α)

/-- The value in a cell. -/
def Matrix.cell? {α : Type} (m : Matrix α) (path name : Text) : Option α :=
  (Table.get? m path).bind fun row => Table.get? row name

/-- The artifacts of one contract. -/
structure ContractArtifact where
  name : Text
  path : Text
  creation : Text
  runtime : Text
  abi : List (Table Json)
  sourceMap : Option Text

/-- The artifacts of all contracts. -/
structure ArtifactMatrix where
  creation : Matrix Text := []
  runtime : Matrix Text := []
  abi : Matrix (List (Table Json)) := []
  sourceMap : Matrix (Option Text) := []

/-- The artifacts of one contract or of all. -/
inductive Artifacts where
  | single (artifact : ContractArtifact)
  | matrix (artifacts : ArtifactMatrix)

/-- The document of a matrix. -/
def Matrix.toJson {α : Type} (cell : α → Json) (m : Matrix α) : Json :=
  .object (m.mapValues fun row => .object (row.mapValues cell))

/-- Reads a matrix; one that is not there has no rows. -/
def Matrix.read {α : Type} (name : Text) (t : Table Json) (cell : Decoder α) : Decoded (Matrix α) :=
  Field.withDefault ⟨name, none⟩ t [] (Decoder.table (Decoder.table cell))

namespace Artifacts

/-- Reads the artifacts of one contract. -/
def readSingle (t : Table Json) : Decoded Artifacts :=
  (fun name path creation runtime abi sourceMap =>
      single ⟨name, path, creation, runtime, abi, sourceMap⟩) <$>
    Field.required ⟨"contract_name", none⟩ t Decoder.text <*>
    Field.required ⟨"source_path", none⟩ t Decoder.text <*>
    Field.required ⟨"bytecode", none⟩ t Decoder.text <*>
    Field.required ⟨"runtime_bytecode", none⟩ t Decoder.text <*>
    Field.required ⟨"abi", none⟩ t abiDecoder <*>
    Field.withDefault ⟨"sourcemap", none⟩ t none (Decoder.nullable Decoder.text)

/-- Reads the artifacts of all contracts. -/
def readMatrix (t : Table Json) : Decoded Artifacts :=
  (fun creation runtime abi sourceMap => matrix ⟨creation, runtime, abi, sourceMap⟩) <$>
    Matrix.read "bytecode" t Decoder.text <*>
    Matrix.read "runtime_bytecode" t Decoder.text <*>
    Matrix.read "abi" t abiDecoder <*>
    Matrix.read "sourcemap" t (Decoder.nullable Decoder.text)

/-- Reads artifacts. -/
def decoder : Decoder Artifacts :=
  Decoder.tagged Selection.tagKey [⟨"contract", readSingle⟩, ⟨"matrix", readMatrix⟩]

/-- The artifacts that a document spells, or why it spells none. -/
def ofJson (j : Json) : Except Rejection Artifacts :=
  (decoder j).toExcept "tagged-union[PerContractArtifact,AllContractsArtifactMatrix]"

/-- The creation code, or its matrix. -/
def creationJson : Artifacts → Json
  | single a => .text a.creation
  | matrix m => m.creation.toJson .text

/-- The runtime code, or its matrix. -/
def runtimeJson : Artifacts → Json
  | single a => .text a.runtime
  | matrix m => m.runtime.toJson .text

/-- The interface description, or its matrix. -/
def abiJson : Artifacts → Json
  | single a => Json.ofAbi a.abi
  | matrix m => m.abi.toJson Json.ofAbi

/-- The source map, or its matrix. -/
def sourceMapJson : Artifacts → Json
  | single a => Json.ofText? a.sourceMap
  | matrix m => m.sourceMap.toJson Json.ofText?

/-- What tells the two kinds of artifacts apart in a document. -/
def head : Artifacts → Table Json
  | single a =>
    [(Selection.tagKey, .text "contract"), ("contract_name", .text a.name),
      ("source_path", .text a.path)]
  | matrix _ => [(Selection.tagKey, .text "matrix")]

/-- The document of artifacts; numbers that are not finite become null. -/
def toJson (a : Artifacts) : Json :=
  Json.finiteOnly <| document a.head
    [("bytecode", a.creationJson), ("runtime_bytecode", a.runtimeJson), ("abi", a.abiJson),
      ("sourcemap", a.sourceMapJson)]

end Artifacts

namespace ContractReport

/-- The artifacts of a contract of a report. -/
def artifact (c : ContractReport) (path name : Text) : ContractArtifact :=
  ⟨name, path, c.machine.creation.code, c.machine.runtime.code, c.abi, c.machine.runtime.sourceMap⟩

end ContractReport

namespace CompileReport

/-- The paths that define a contract of the given name, each with that contract, in order. -/
def definitions (r : CompileReport) (name : Text) : List (Text × ContractReport) :=
  r.contracts.filterMap fun (path, contracts) =>
    (Table.get? contracts name).map fun contract => (path, contract)

/-- The artifacts of the one contract of the given name. -/
def extractOne (r : CompileReport) (name : Text) : Except Failure ContractArtifact :=
  match r.definitions name with
  | [] => .error (.contractMissing name)
  | [(path, contract)] => .ok (contract.artifact path name)
  | found => .error (.contractAmbiguous name (found.map (·.1)))

/-- The artifacts of all contracts. -/
def extractAll (r : CompileReport) : ArtifactMatrix where
  creation := r.contracts.mapValues fun row => row.mapValues fun c => c.machine.creation.code
  runtime := r.contracts.mapValues fun row => row.mapValues fun c => c.machine.runtime.code
  abi := r.contracts.mapValues fun row => row.mapValues fun c => c.abi
  sourceMap := r.contracts.mapValues fun row => row.mapValues fun c => c.machine.runtime.sourceMap

/-- The artifacts of the selected contracts. -/
def extract (r : CompileReport) : Selection → Except Failure Artifacts
  | .contract name => .single <$> r.extractOne name
  | .all => .ok (.matrix r.extractAll)

end CompileReport

end SolidityBuild
