import SolidityBuild.Schema.Scalar

/-!
The document in which the compiler answers: diagnostics, contracts by path and name, and what it knows
of every source. Some fields are read under two keys; the first one is the key that is written. Entries
that are not declared here are kept at every level and follow the declared ones.
-/

set_option autoImplicit false

namespace SolidityBuild

open Schema

/-- A text field that may be null. -/
def Json.ofText? : Option Text → Json
  | some t => .text t
  | none => .null

/-- A diagnostic of the compiler. -/
structure Diagnostic where
  severity : Text
  message : Text
  formatted : Option Text
  extras : Table Json := []

namespace Diagnostic

def severityField : Field := ⟨"severity", none⟩
def messageField : Field := ⟨"message", none⟩
def formattedField : Field := ⟨"formattedMessage", some "formatted_message"⟩

/-- Reads a diagnostic. -/
def decoder : Decoder Diagnostic :=
  model "CompilerDiagnostic" fun t =>
    (fun severity message formatted =>
        ⟨severity, message, formatted, undeclared [severityField, messageField, formattedField] t⟩) <$>
      severityField.required t Decoder.text <*>
      messageField.withDefault t [] Decoder.text <*>
      formattedField.withDefault t none (Decoder.nullable Decoder.text)

/-- The document of a diagnostic. -/
def toJson (d : Diagnostic) : Json :=
  document
    [("severity", .text d.severity), ("message", .text d.message),
      (formattedField.name, Json.ofText? d.formatted)] d.extras

/-- The severity of the diagnostics that make a compilation fail. -/
def fatalSeverity : Text := "error"

/-- Whether the diagnostic makes the compilation fail. -/
def isFatal (d : Diagnostic) : Bool := d.severity = fatalSeverity

/-- The text shown to a reader: the formatted one if there is any. -/
def display (d : Diagnostic) : Text :=
  match d.formatted with
  | some (c :: t) => c :: t
  | _ => d.message

end Diagnostic

/-- The code that creates a contract. -/
structure CreationCode where
  code : Text
  extras : Table Json := []

/-- The code of a contract once created, with its map into the sources. -/
structure RuntimeCode where
  code : Text
  sourceMap : Option Text
  extras : Table Json := []

/-- Both codes of a contract. -/
structure MachineCode where
  creation : CreationCode
  runtime : RuntimeCode
  extras : Table Json := []

/-- What the compiler reports of a contract. -/
structure ContractReport where
  abi : List (Table Json)
  machine : MachineCode
  extras : Table Json := []

/-- What the compiler reports of a source; the text itself is normally not among it. -/
structure SourceReport where
  id : Option Int := none
  ast : Option (Table Json) := none
  /-- The text of the source, if there is one. -/
  source : Option Text := none
  extras : Table Json := []

/-- The compiler's answer. -/
structure CompileReport where
  diagnostics : List Diagnostic
  contracts : Table (Table ContractReport)
  sources : Table SourceReport
  extras : Table Json := []

namespace CreationCode

def codeField : Field := ⟨"object", some "code"⟩

/-- No code. -/
def empty : CreationCode := ⟨[], []⟩

/-- Reads creation code. -/
def decoder : Decoder CreationCode :=
  model "Bytecode" fun t =>
    (fun code => ⟨code, undeclared [codeField] t⟩) <$>
      codeField.withDefault t [] Decoder.text

/-- The document of creation code. -/
def toJson (c : CreationCode) : Json := document [(codeField.name, .text c.code)] c.extras

end CreationCode

namespace RuntimeCode

def codeField : Field := ⟨"object", some "code"⟩
def sourceMapField : Field := ⟨"sourceMap", some "source_map"⟩

/-- No code. -/
def empty : RuntimeCode := ⟨[], none, []⟩

/-- Reads runtime code. -/
def decoder : Decoder RuntimeCode :=
  model "DeployedBytecode" fun t =>
    (fun code sourceMap => ⟨code, sourceMap, undeclared [codeField, sourceMapField] t⟩) <$>
      codeField.withDefault t [] Decoder.text <*>
      sourceMapField.withDefault t none (Decoder.nullable Decoder.text)

/-- The document of runtime code. -/
def toJson (c : RuntimeCode) : Json :=
  document
    [(codeField.name, .text c.code), (sourceMapField.name, Json.ofText? c.sourceMap)] c.extras

end RuntimeCode

namespace MachineCode

def creationField : Field := ⟨"bytecode", none⟩
def runtimeField : Field := ⟨"deployedBytecode", some "deployed_bytecode"⟩

/-- No code. -/
def empty : MachineCode := ⟨.empty, .empty, []⟩

/-- Reads both codes. -/
def decoder : Decoder MachineCode :=
  model "EvmOutput" fun t =>
    (fun creation runtime => ⟨creation, runtime, undeclared [creationField, runtimeField] t⟩) <$>
      creationField.withDefault t .empty CreationCode.decoder <*>
      runtimeField.withDefault t .empty RuntimeCode.decoder

/-- The document of both codes. -/
def toJson (m : MachineCode) : Json :=
  document
    [(creationField.name, m.creation.toJson), (runtimeField.name, m.runtime.toJson)] m.extras

end MachineCode

/-- Reads the interface description of a contract: a list of objects. -/
def abiDecoder : Decoder (List (Table Json)) := Decoder.list Decoder.mapping

/-- The document of an interface description. -/
def Json.ofAbi (abi : List (Table Json)) : Json := .list (abi.map .object)

namespace ContractReport

def abiField : Field := ⟨"abi", none⟩
def machineField : Field := ⟨"evm", none⟩

/-- Reads the report on a contract. -/
def decoder : Decoder ContractReport :=
  model "ContractInfo" fun t =>
    (fun abi machine => ⟨abi, machine, undeclared [abiField, machineField] t⟩) <$>
      abiField.withDefault t [] abiDecoder <*>
      machineField.withDefault t .empty MachineCode.decoder

/-- The document of the report on a contract. -/
def toJson (c : ContractReport) : Json :=
  document [("abi", Json.ofAbi c.abi), ("evm", c.machine.toJson)] c.extras

end ContractReport

namespace SourceReport

def idField : Field := ⟨"id", none⟩
def astField : Field := ⟨"ast", none⟩
def sourceField : Field := ⟨"source", none⟩

/-- Reads the report on a source. -/
def decoder : Decoder SourceReport :=
  model "SourceInfo" fun t =>
    (fun id ast source => ⟨id, ast, source, undeclared [idField, astField, sourceField] t⟩) <$>
      idField.withDefault t none (Decoder.nullable Decoder.integer) <*>
      astField.withDefault t none (Decoder.nullable Decoder.mapping) <*>
      sourceField.withDefault t none (Decoder.nullable Decoder.text)

/-- The syntax tree as a value; null if there is none. -/
def astJson (s : SourceReport) : Json :=
  match s.ast with
  | some t => .object t
  | none => .null

/-- The number of the source as a value; null if there is none. -/
def idJson (id : Option Int) : Json :=
  match id with
  | some n => .int n
  | none => .null

/-- The document of the report on a source. -/
def toJson (s : SourceReport) : Json :=
  document [("id", idJson s.id), ("ast", s.astJson), ("source", Json.ofText? s.source)] s.extras

end SourceReport

namespace CompileReport

def diagnosticsField : Field := ⟨"errors", none⟩
def contractsField : Field := ⟨"contracts", none⟩
def sourcesField : Field := ⟨"sources", none⟩

/-- Reads a report. -/
def decoder : Decoder CompileReport :=
  model "CompilerOutput" fun t =>
    (fun diagnostics contracts sources =>
        ⟨diagnostics, contracts, sources,
          undeclared [diagnosticsField, contractsField, sourcesField] t⟩) <$>
      diagnosticsField.withDefault t [] (Decoder.list Diagnostic.decoder) <*>
      contractsField.withDefault t [] (Decoder.table (Decoder.table ContractReport.decoder)) <*>
      sourcesField.withDefault t [] (Decoder.table SourceReport.decoder)

/-- The report that a document spells, or why it spells none. -/
def ofJson (j : Json) : Except Rejection CompileReport := (decoder j).toExcept "CompilerOutput"

/-- The document of a report; numbers that are not finite become null. -/
def toJson (r : CompileReport) : Json :=
  Json.finiteOnly <| document
    [("errors", .list (r.diagnostics.map Diagnostic.toJson)),
      ("contracts", .object (r.contracts.mapValues fun cs =>
        .object (cs.mapValues ContractReport.toJson))),
      ("sources", .object (r.sources.mapValues SourceReport.toJson))] r.extras

/-- The diagnostics that make the compilation fail, in order. -/
def fatal (r : CompileReport) : List Diagnostic := r.diagnostics.filter Diagnostic.isFatal

end CompileReport

end SolidityBuild
