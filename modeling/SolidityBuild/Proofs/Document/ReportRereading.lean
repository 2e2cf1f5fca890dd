import SolidityBuild.Proofs.Document.CompileReport
import SolidityBuild.Proofs.Schema.Faithful

/-!
Reports written as documents. Every model of a report belongs together with its writer, so what is written of a
decoded report is a report again, and writing that one changes nothing.
-/

set_option autoImplicit false

namespace SolidityBuild

open Schema Json

/-! ## Numbers that are not finite -/

/-- The diagnostic without numbers that are not finite. -/
def Diagnostic.finiteOnly (d : Diagnostic) : Diagnostic := { d with extras := d.extras.mapValues Json.finiteOnly }

def CreationCode.finiteOnly (c : CreationCode) : CreationCode :=
  { c with extras := c.extras.mapValues Json.finiteOnly }

def RuntimeCode.finiteOnly (c : RuntimeCode) : RuntimeCode :=
  { c with extras := c.extras.mapValues Json.finiteOnly }

def MachineCode.finiteOnly (m : MachineCode) : MachineCode :=
  ⟨m.creation.finiteOnly, m.runtime.finiteOnly, m.extras.mapValues Json.finiteOnly⟩

def ContractReport.finiteOnly (c : ContractReport) : ContractReport :=
  ⟨c.abi.map (Table.mapValues Json.finiteOnly), c.machine.finiteOnly, c.extras.mapValues Json.finiteOnly⟩

def SourceReport.finiteOnly (s : SourceReport) : SourceReport :=
  { s with ast := s.ast.map (Table.mapValues Json.finiteOnly), extras := s.extras.mapValues Json.finiteOnly }

def CompileReport.finiteOnly (r : CompileReport) : CompileReport where
  diagnostics := r.diagnostics.map Diagnostic.finiteOnly
  contracts := r.contracts.mapValues (Table.mapValues ContractReport.finiteOnly)
  sources := r.sources.mapValues SourceReport.finiteOnly
  extras := r.extras.mapValues Json.finiteOnly

/-! ## Models and their writers -/

theorem Schema.Faithful.nullableText : Faithful (Decoder.nullable Decoder.text) Json.ofText? (Option.map id) :=
  Faithful.text.nullable (fun _ h => nomatch h) rfl fun _ => rfl

theorem Schema.Faithful.abi : Faithful abiDecoder Json.ofAbi (List.map (Table.mapValues Json.finiteOnly)) :=
  Faithful.mapping.list

theorem Schema.Faithful.number :
    Faithful (Decoder.nullable Decoder.integer) SourceReport.idJson (Option.map id) :=
  Faithful.integer.nullable (fun _ h => nomatch h) rfl fun _ => rfl

theorem Schema.Faithful.tree : Faithful (Decoder.nullable Decoder.mapping)
    (fun t => SourceReport.astJson ⟨none, t, none, []⟩) (Option.map (Table.mapValues Json.finiteOnly)) :=
  Faithful.mapping.nullable (fun _ h => nomatch h) rfl fun _ => rfl

theorem Diagnostic.faithful : FaithfulModel [severityField, messageField, formattedField] Diagnostic.decoder
    Diagnostic.toJson Diagnostic.finiteOnly := by
  have hfields := ((FaithfulFields.required (f := severityField) .text).pair
    (.withDefault (f := messageField) .text [] rfl rfl)).pair
    (.withDefault (f := formattedField) .nullableText none rfl rfl)
  refine hfields.model (by decide) "CompilerDiagnostic" (fun p extras => ⟨p.1.1, p.1.2, p.2, extras⟩) ?_ ?_ ?_ ?_
  · exact congrArg (model _) (funext fun t => Decoded.map_pair_pair _ _ _ _)
  · exact fun _ _ => rfl
  · rintro ⟨⟨severity, message⟩, _ | formatted⟩ extras <;> rfl
  · exact fun d => ⟨((d.severity, d.message), d.formatted), d.extras, rfl⟩

theorem CreationCode.faithful : FaithfulModel [codeField] CreationCode.decoder CreationCode.toJson
    CreationCode.finiteOnly := by
  have hfields := FaithfulFields.withDefault (f := codeField) .text [] rfl rfl
  exact hfields.model (by decide) "Bytecode" CreationCode.mk rfl (fun _ _ => rfl) (fun _ _ => rfl)
    fun c => ⟨c.code, c.extras, rfl⟩

theorem RuntimeCode.faithful : FaithfulModel [codeField, sourceMapField] RuntimeCode.decoder RuntimeCode.toJson
    RuntimeCode.finiteOnly := by
  have hfields := (FaithfulFields.withDefault (f := codeField) .text [] rfl rfl).pair
    (.withDefault (f := sourceMapField) .nullableText none rfl rfl)
  refine hfields.model (by decide) "DeployedBytecode" (fun p extras => ⟨p.1, p.2, extras⟩) ?_ ?_ ?_ ?_
  · exact congrArg (model _) (funext fun t => Decoded.map_pair _ _ _)
  · exact fun _ _ => rfl
  · rintro ⟨code, _ | sourceMap⟩ extras <;> rfl
  · exact fun c => ⟨(c.code, c.sourceMap), c.extras, rfl⟩

theorem MachineCode.faithful : FaithfulModel [creationField, runtimeField] MachineCode.decoder MachineCode.toJson
    MachineCode.finiteOnly := by
  have hfields := (FaithfulFields.withDefault (f := creationField) CreationCode.faithful.toFaithful .empty rfl rfl).pair
    (.withDefault (f := runtimeField) RuntimeCode.faithful.toFaithful .empty rfl rfl)
  refine hfields.model (by decide) "EvmOutput" (fun p extras => ⟨p.1, p.2, extras⟩) ?_ ?_ ?_ ?_
  · exact congrArg (model _) (funext fun t => Decoded.map_pair _ _ _)
  · exact fun _ _ => rfl
  · exact fun _ _ => rfl
  · exact fun m => ⟨(m.creation, m.runtime), m.extras, rfl⟩

theorem ContractReport.faithful : FaithfulModel [abiField, machineField] ContractReport.decoder
    ContractReport.toJson ContractReport.finiteOnly := by
  have hfields := (FaithfulFields.withDefault (f := abiField) .abi [] rfl rfl).pair
    (.withDefault (f := machineField) MachineCode.faithful.toFaithful .empty rfl rfl)
  refine hfields.model (by decide) "ContractInfo" (fun p extras => ⟨p.1, p.2, extras⟩) ?_ ?_ ?_ ?_
  · exact congrArg (model _) (funext fun t => Decoded.map_pair _ _ _)
  · exact fun _ _ => rfl
  · exact fun _ _ => rfl
  · exact fun c => ⟨(c.abi, c.machine), c.extras, rfl⟩

theorem SourceReport.faithful : FaithfulModel [idField, astField, sourceField] SourceReport.decoder
    SourceReport.toJson SourceReport.finiteOnly := by
  have hfields := ((FaithfulFields.withDefault (f := idField) .number none rfl rfl).pair
    (.withDefault (f := astField) .tree none rfl rfl)).pair (.withDefault (f := sourceField) .nullableText none rfl rfl)
  refine hfields.model (by decide) "SourceInfo" (fun p extras => ⟨p.1.1, p.1.2, p.2, extras⟩) ?_ ?_ ?_ ?_
  · exact congrArg (model _) (funext fun t => Decoded.map_pair_pair _ _ _ _)
  · exact fun _ _ => rfl
  · rintro ⟨⟨_ | id, ast⟩, _ | source⟩ extras <;> rfl
  · exact fun s => ⟨((s.id, s.ast), s.source), s.extras, rfl⟩

namespace CompileReport

/-- The document of a report, before numbers that are not finite are replaced. -/
def rawJson (r : CompileReport) : Json :=
  document
    [("errors", .list (r.diagnostics.map Diagnostic.toJson)),
      ("contracts", .object (r.contracts.mapValues fun cs => .object (cs.mapValues ContractReport.toJson))),
      ("sources", .object (r.sources.mapValues SourceReport.toJson))] r.extras

theorem toJson_eq (r : CompileReport) : r.toJson = r.rawJson.finiteOnly := rfl

theorem faithful : FaithfulModel [diagnosticsField, contractsField, sourcesField] decoder rawJson
    CompileReport.finiteOnly := by
  have hfields := ((FaithfulFields.withDefault (f := diagnosticsField)
      Diagnostic.faithful.toFaithful.list [] rfl rfl).pair
    (.withDefault (f := contractsField) ContractReport.faithful.toFaithful.table.table [] rfl rfl)).pair
    (.withDefault (f := sourcesField) SourceReport.faithful.toFaithful.table [] rfl rfl)
  refine hfields.model (by decide) "CompilerOutput" (fun p extras => ⟨p.1.1, p.1.2, p.2, extras⟩) ?_ ?_ ?_ ?_
  · exact congrArg (model _) (funext fun t => Decoded.map_pair_pair _ _ _ _)
  · exact fun _ _ => rfl
  · exact fun _ _ => rfl
  · exact fun r => ⟨((r.diagnostics, r.contracts), r.sources), r.extras, rfl⟩

end CompileReport

end SolidityBuild
