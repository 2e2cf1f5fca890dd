import SolidityBuild.Compilation.Normalized
import SolidityBuild.Proofs.Document.ReportRereading

/-!
The document that is written of a report, part by part. A part is a place of the document for which a model declares
fields; every part is found again where it was, with the entries that its model does not declare, and a text that has
two names is found under the first of them. Nothing that is made of a report tells its document from the one written.
-/

set_option autoImplicit false

namespace SolidityBuild

open Schema Json

/-- The value of a field in a document: what stands under its first name, or else under its second. -/
def Schema.Field.get? (f : Field) (j : Json) : Option Json := (j.get? f.name).or (f.otherName.bind j.get?)

/-- A part of a report document with declared fields. -/
inductive ReportPart where
  | whole
  | diagnostic (place : Nat)
  | contract (path name : Text)
  | machine (path name : Text)
  | creation (path name : Text)
  | runtime (path name : Text)
  | source (path : Text)

namespace ReportPart

/-- What a document has for a contract. -/
def contractAt (document : Json) (path name : Text) : Option Json :=
  ((document.entriesAt "contracts").get? path).bind fun contracts => contracts.get? name

/-- What a document has for the codes of a contract. -/
def machineAt (document : Json) (path name : Text) : Option Json :=
  (contractAt document path name).bind ContractReport.machineField.get?

/-- The part in a document. -/
def find? (document : Json) : ReportPart → Option Json
  | whole => some document
  | diagnostic place => (document.itemsAt "errors")[place]?
  | contract path name => contractAt document path name
  | machine path name => machineAt document path name
  | creation path name => (machineAt document path name).bind MachineCode.creationField.get?
  | runtime path name => (machineAt document path name).bind MachineCode.runtimeField.get?
  | source path => (document.entriesAt "sources").get? path

/-- The fields that are declared for the part. -/
def fields : ReportPart → List Field
  | whole => [CompileReport.diagnosticsField, CompileReport.contractsField, CompileReport.sourcesField]
  | diagnostic _ => [Diagnostic.severityField, Diagnostic.messageField, Diagnostic.formattedField]
  | contract .. => [ContractReport.abiField, ContractReport.machineField]
  | machine .. => [MachineCode.creationField, MachineCode.runtimeField]
  | creation .. => [CreationCode.codeField]
  | runtime .. => [RuntimeCode.codeField, RuntimeCode.sourceMapField]
  | source _ => [SourceReport.idField, SourceReport.astField, SourceReport.sourceField]

/-- The texts with two names that are declared for the part, with what is written of them if there are none. -/
def twoNamed : ReportPart → List (Field × Json)
  | diagnostic _ => [(Diagnostic.formattedField, .null)]
  | creation .. => [(CreationCode.codeField, .text [])]
  | runtime .. => [(RuntimeCode.codeField, .text []), (RuntimeCode.sourceMapField, .null)]
  | _ => []

/-- What is written of a part, compared with the part itself: entries that no field is read from stay, with their
numbers replaced, and what was read under either of two names stands under the first. -/
structure Kept (part : ReportPart) (x y : Json) : Prop where
  unread : ∀ {k}, Unread part.fields x k → y.get? k = (x.get? k).map finiteOnly
  named : ∀ e ∈ part.twoNamed, y.get? e.1.name = some ((e.1.get? x).getD e.2)

end ReportPart

/-! ## Fields with two names -/

section Fields

variable {α : Type} {f : Field} {t : Table Json} {default a : α} {d : Decoder α}

/-- A field is read from its value, if it has one. -/
theorem Schema.Field.withDefault_cases (h : f.withDefault t default d = .value a) :
    (f.get? (.object t) = none ∧ default = a) ∨ ∃ x, f.get? (.object t) = some x ∧ d x = .value a := by
  obtain ⟨name, _ | other⟩ := f
  · simp only [Field.get?, Option.bind_none, Option.or_none, get?_object]
    exact Field.withDefault_eq_value h
  · simp only [Field.get?, Option.bind_some, get?_object]
    rcases Field.read_or_eq_value h with ⟨hnone, hdefault⟩ | hfound
    · exact .inl ⟨hnone, Decoded.value.inj hdefault⟩
    · exact .inr hfound

theorem Schema.Field.withDefault_of_get? (h : f.withDefault t default d = .value a) {x : Json}
    (hx : f.get? (.object t) = some x) : d x = .value a := by
  rcases Field.withDefault_cases h with ⟨hnone, -⟩ | ⟨x', hx', ha⟩
  · rw [hnone] at hx
    exact nomatch hx
  · rw [hx', Option.some.injEq] at hx
    rwa [← hx]

/-- What is written of a field whose values are written as they were read. -/
theorem Schema.Field.withDefault_written {write : α → Json} (h : f.withDefault t default d = .value a)
    (hd : ∀ {x a}, d x = .value a → write a = x) : write a = (f.get? (.object t)).getD (write default) := by
  rcases Field.withDefault_cases h with ⟨hnone, rfl⟩ | ⟨x, hx, ha⟩
  · rw [hnone, Option.getD_none]
  · rw [hx, Option.getD_some, hd ha]

end Fields

theorem Json.text_of_decoder {x : Json} {t : Text} (h : Decoder.text x = .value t) : Json.text t = x :=
  (Decoder.text_eq_value h).symm

theorem Json.ofText?_of_decoder {x : Json} {t : Option Text} (h : Decoder.nullable Decoder.text x = .value t) :
    Json.ofText? t = x := by
  rcases Decoder.nullable_eq_value h with ⟨rfl, rfl⟩ | ⟨text, ha, rfl⟩
  · rfl
  · exact Json.text_of_decoder ha

theorem Json.finite_ofText? (t : Option Text) : Finite (Json.ofText? t) := by
  cases t with
  | none => rfl
  | some text => rfl

/-! ## Parts that are written -/

/-- What stands in a written document without numbers that are not finite. -/
theorem Json.get?_finiteOnly_document (declared extras : Table Json) (key : Text) :
    (document declared extras).finiteOnly.get? key = (Table.get? (declared ++ extras) key).map finiteOnly := by
  rw [document, finiteOnly_object, get?_object, Table.get?_mapValues]

namespace CompileReport

/-- The diagnostics that are written. -/
theorem itemsAt_toJson (r : CompileReport) :
    r.toJson.itemsAt "errors" = r.diagnostics.map fun d => d.toJson.finiteOnly := by
  have hget : r.toJson.get? "errors" = some (Json.list (r.diagnostics.map Diagnostic.toJson)).finiteOnly := by
    rw [toJson_eq, rawJson, get?_finiteOnly_document]
    rfl
  rw [itemsAt, hget, Json.finiteOnly, finiteOnlyItems_eq, List.map_map]
  rfl

/-- The contracts that are written. -/
theorem entriesAt_contracts_toJson (r : CompileReport) : r.toJson.entriesAt "contracts" =
    r.contracts.mapValues fun cs => .object (cs.mapValues fun c => c.toJson.finiteOnly) := by
  have hget : r.toJson.get? "contracts" =
      some (Json.object (r.contracts.mapValues fun cs => .object (cs.mapValues ContractReport.toJson))).finiteOnly := by
    rw [toJson_eq, rawJson, get?_finiteOnly_document]
    rfl
  rw [entriesAt, hget, finiteOnly_object, Option.bind_some, entries?, Option.getD_some, Table.mapValues_mapValues]
  simp only [finiteOnly_object, Table.mapValues_mapValues]

/-- The sources that are written. -/
theorem entriesAt_sources_toJson (r : CompileReport) :
    r.toJson.entriesAt "sources" = r.sources.mapValues fun s => s.toJson.finiteOnly := by
  have hget : r.toJson.get? "sources" =
      some (Json.object (r.sources.mapValues SourceReport.toJson)).finiteOnly := by
    rw [toJson_eq, rawJson, get?_finiteOnly_document]
    rfl
  rw [entriesAt, hget, finiteOnly_object, Option.bind_some, entries?, Option.getD_some, Table.mapValues_mapValues]

end CompileReport

namespace ReportPart

variable {document x : Json} {r : CompileReport} {path name : Text}

/-- A diagnostic of the document is read, and written in its place. -/
theorem diagnostic_found (h : CompileReport.ofJson document = .ok r) {place : Nat}
    (hx : (diagnostic place).find? document = some x) :
    ∃ d, Diagnostic.decoder x = .value d ∧ (diagnostic place).find? r.toJson = some d.toJson.finiteOnly := by
  obtain ⟨-, -, hdiagnostics, -, -⟩ := CompileReport.parts_of_ofJson h
  obtain ⟨d, hd, hdecoded⟩ := getElem?_of_forall₂ hdiagnostics hx
  refine ⟨d, hdecoded, ?_⟩
  rw [find?, CompileReport.itemsAt_toJson, List.getElem?_map, hd, Option.map_some]

/-- A source of the document is read, and written under its path. -/
theorem source_found (h : CompileReport.ofJson document = .ok r) (hx : (source path).find? document = some x) :
    ∃ s, SourceReport.decoder x = .value s ∧ (source path).find? r.toJson = some s.toJson.finiteOnly := by
  obtain ⟨-, -, -, -, hsources⟩ := CompileReport.parts_of_ofJson h
  obtain ⟨s, hs, hdecoded⟩ := Decoder.get?_of_forall₂ hsources hx
  refine ⟨s, hdecoded, ?_⟩
  rw [find?, CompileReport.entriesAt_sources_toJson, Table.get?_mapValues, hs, Option.map_some]

/-- A contract of the document is read, and written under its path and name. -/
theorem contract_found (h : CompileReport.ofJson document = .ok r) (hx : contractAt document path name = some x) :
    ∃ c, ContractReport.decoder x = .value c ∧ contractAt r.toJson path name = some c.toJson.finiteOnly := by
  obtain ⟨-, -, -, hcontracts, -⟩ := CompileReport.parts_of_ofJson h
  obtain ⟨row, hrow, hcell⟩ := Option.bind_eq_some_iff.mp hx
  obtain ⟨cs, hcs, htable⟩ := Decoder.get?_of_forall₂ hcontracts hrow
  obtain ⟨entries, rfl, hentries⟩ := Decoder.table_eq_value htable
  obtain ⟨c, hc, hdecoded⟩ := Decoder.get?_of_forall₂ hentries hcell
  refine ⟨c, hdecoded, ?_⟩
  rw [contractAt, CompileReport.entriesAt_contracts_toJson, Table.get?_mapValues, hcs, Option.map_some,
    Option.bind_some, get?_object, Table.get?_mapValues, hc, Option.map_some]

/-- The codes of a contract of the document are read, and written with the contract. -/
theorem machine_found (h : CompileReport.ofJson document = .ok r) (hx : machineAt document path name = some x) :
    ∃ m, MachineCode.decoder x = .value m ∧ machineAt r.toJson path name = some m.toJson.finiteOnly := by
  obtain ⟨contract, hcontract, hevm⟩ := Option.bind_eq_some_iff.mp hx
  obtain ⟨c, hc, hwritten⟩ := contract_found h hcontract
  obtain ⟨t, rfl, hread⟩ := model_eq_value hc
  obtain ⟨g, machine, hg, hmachine, rfl⟩ := Decoded.seq_eq_value hread
  obtain ⟨abi, -, rfl⟩ := Decoded.map_eq_value hg
  refine ⟨machine, Field.withDefault_of_get? hmachine hevm, ?_⟩
  rw [machineAt, hwritten, Option.bind_some, ContractReport.toJson, Field.get?, get?_finiteOnly_document]
  rfl

/-- The code that creates a contract is read, and written with the codes of the contract. -/
theorem creation_found (h : CompileReport.ofJson document = .ok r)
    (hx : (creation path name).find? document = some x) :
    ∃ c, CreationCode.decoder x = .value c ∧ (creation path name).find? r.toJson = some c.toJson.finiteOnly := by
  obtain ⟨codes, hcodes, hfield⟩ := Option.bind_eq_some_iff.mp hx
  obtain ⟨m, hm, hwritten⟩ := machine_found h hcodes
  obtain ⟨t, rfl, hread⟩ := model_eq_value hm
  obtain ⟨g, runtime, hg, -, rfl⟩ := Decoded.seq_eq_value hread
  obtain ⟨creation, hcreation, rfl⟩ := Decoded.map_eq_value hg
  refine ⟨creation, Field.withDefault_of_get? hcreation hfield, ?_⟩
  rw [find?, hwritten, Option.bind_some, MachineCode.toJson, Field.get?, get?_finiteOnly_document]
  rfl

/-- The code of a contract once created is read from under either of its names, and written under the first. -/
theorem runtime_found (h : CompileReport.ofJson document = .ok r)
    (hx : (runtime path name).find? document = some x) :
    ∃ c, RuntimeCode.decoder x = .value c ∧ (runtime path name).find? r.toJson = some c.toJson.finiteOnly := by
  obtain ⟨codes, hcodes, hfield⟩ := Option.bind_eq_some_iff.mp hx
  obtain ⟨m, hm, hwritten⟩ := machine_found h hcodes
  obtain ⟨t, rfl, hread⟩ := model_eq_value hm
  obtain ⟨g, runtime, hg, hruntime, rfl⟩ := Decoded.seq_eq_value hread
  obtain ⟨creation, -, rfl⟩ := Decoded.map_eq_value hg
  refine ⟨runtime, Field.withDefault_of_get? hruntime hfield, ?_⟩
  rw [find?, hwritten, Option.bind_some, MachineCode.toJson, Field.get?, get?_finiteOnly_document]
  rfl

/-! ## What is kept of a part -/

theorem kept_diagnostic {d : Diagnostic} (h : Diagnostic.decoder x = .value d) (place : Nat) :
    (diagnostic place).Kept x d.toJson.finiteOnly := by
  refine ⟨fun hkey => Diagnostic.faithful.kept h hkey, List.forall_mem_singleton.mpr ?_⟩
  obtain ⟨t, rfl, hread⟩ := model_eq_value h
  obtain ⟨g, formatted, hg, hformatted, rfl⟩ := Decoded.seq_eq_value hread
  obtain ⟨g', message, hg', -, rfl⟩ := Decoded.seq_eq_value hg
  obtain ⟨severity, -, rfl⟩ := Decoded.map_eq_value hg'
  have hwritten := Field.withDefault_written hformatted Json.ofText?_of_decoder
  have hfinite : (Json.ofText? formatted).finiteOnly = Json.ofText? formatted := Json.finite_ofText? formatted
  rw [Diagnostic.toJson, get?_finiteOnly_document]
  exact congrArg some (hfinite.trans hwritten)

theorem kept_creation {c : CreationCode} (h : CreationCode.decoder x = .value c) (path name : Text) :
    (creation path name).Kept x c.toJson.finiteOnly := by
  refine ⟨fun hkey => CreationCode.faithful.kept h hkey, List.forall_mem_singleton.mpr ?_⟩
  obtain ⟨t, rfl, hread⟩ := model_eq_value h
  obtain ⟨code, hcode, rfl⟩ := Decoded.map_eq_value hread
  have hwritten := Field.withDefault_written hcode Json.text_of_decoder
  rw [CreationCode.toJson, get?_finiteOnly_document, ← hwritten]
  rfl

theorem kept_runtime {c : RuntimeCode} (h : RuntimeCode.decoder x = .value c) (path name : Text) :
    (runtime path name).Kept x c.toJson.finiteOnly := by
  refine ⟨fun hkey => RuntimeCode.faithful.kept h hkey, ?_⟩
  obtain ⟨t, rfl, hread⟩ := model_eq_value h
  obtain ⟨g, sourceMap, hg, hsourceMap, rfl⟩ := Decoded.seq_eq_value hread
  obtain ⟨code, hcode, rfl⟩ := Decoded.map_eq_value hg
  have hcodeWritten := Field.withDefault_written hcode Json.text_of_decoder
  have hmapWritten := Field.withDefault_written hsourceMap Json.ofText?_of_decoder
  have hfinite : (Json.ofText? sourceMap).finiteOnly = Json.ofText? sourceMap := Json.finite_ofText? sourceMap
  rw [RuntimeCode.toJson]
  refine List.forall_mem_cons.mpr ⟨?_, List.forall_mem_singleton.mpr ?_⟩
  · rw [get?_finiteOnly_document]
    exact congrArg some hcodeWritten
  · rw [get?_finiteOnly_document]
    exact congrArg some (hfinite.trans hmapWritten)

/-- **Every part of a document is kept** in the one that is written of its report. -/
theorem exists_kept (h : CompileReport.ofJson document = .ok r) {part : ReportPart}
    (hx : part.find? document = some x) : ∃ y, part.find? r.toJson = some y ∧ part.Kept x y := by
  cases part with
  | whole =>
    obtain rfl := Option.some.inj hx
    have hr := Decoded.toExcept_eq_ok h
    exact ⟨_, rfl, fun hkey => CompileReport.faithful.kept hr hkey, List.forall_mem_nil _⟩
  | diagnostic place =>
    obtain ⟨d, hd, hwritten⟩ := diagnostic_found h hx
    exact ⟨_, hwritten, kept_diagnostic hd place⟩
  | contract path name =>
    obtain ⟨c, hc, hwritten⟩ := contract_found h hx
    exact ⟨_, hwritten, fun hkey => ContractReport.faithful.kept hc hkey, List.forall_mem_nil _⟩
  | machine path name =>
    obtain ⟨m, hm, hwritten⟩ := machine_found h hx
    exact ⟨_, hwritten, fun hkey => MachineCode.faithful.kept hm hkey, List.forall_mem_nil _⟩
  | creation path name =>
    obtain ⟨c, hc, hwritten⟩ := creation_found h hx
    exact ⟨_, hwritten, kept_creation hc path name⟩
  | runtime path name =>
    obtain ⟨c, hc, hwritten⟩ := runtime_found h hx
    exact ⟨_, hwritten, kept_runtime hc path name⟩
  | source path =>
    obtain ⟨s, hs, hwritten⟩ := source_found h hx
    exact ⟨_, hwritten, fun hkey => SourceReport.faithful.kept hs hkey, List.forall_mem_nil _⟩

end ReportPart

/-! ## The document that is written -/

namespace CompileReport

variable {document : Json} {r : CompileReport}

/-- The document of a report spells the report without numbers that are not finite. -/
theorem ofJson_toJson (h : ofJson document = .ok r) : ofJson r.toJson = .ok r.finiteOnly := by
  have hwritten := faithful.decode_written (Decoded.toExcept_eq_ok h)
  rw [toJson_eq, ofJson, hwritten]
  rfl

/-- Where the document has no such numbers, its report is the one that is read again. -/
theorem ofJson_toJson_of_finite (h : ofJson document = .ok r) (hfinite : document.Finite) :
    ofJson r.toJson = ofJson document := by
  rw [ofJson_toJson h, h, faithful.replaced_eq (Decoded.toExcept_eq_ok h) hfinite]

/-- Documents of one report are accepted alike. -/
theorem accept_congr {document' : Json} (h : ofJson document = ofJson document') :
    accept document = accept document' := by
  rw [accept, accept, h]

/-- **Reading a report and writing it settles its document.** What is written is a report again, and writing that one
changes nothing; every part of the document is kept; and a document without numbers that are not finite cannot be
told from the one that is written by what a bundle makes of it. -/
theorem toJson_settles_and_keeps (h : ofJson document = .ok r) :
    (∃ r', ofJson r.toJson = .ok r' ∧ r'.toJson = r.toJson) ∧
    (∀ (part : ReportPart) x, part.find? document = some x →
      ∃ y, part.find? r.toJson = some y ∧ part.Kept x y) ∧
    (document.Finite → ∀ version request selection post,
      Bundle.normalize r.toJson version request selection post =
        Bundle.normalize document version request selection post) := by
  refine ⟨⟨r.finiteOnly, ofJson_toJson h, ?_⟩, ?_, ?_⟩
  · rw [toJson_eq, toJson_eq]
    exact faithful.written_again r
  · intro part x hx
    exact ReportPart.exists_kept h hx
  · intro hfinite version request selection post
    unfold Bundle.normalize
    rw [accept_congr (ofJson_toJson_of_finite h hfinite)]

/-- A report that uses second names, once beside the first one, and says more than is declared at every level. -/
def secondNames : Json :=
  .object
    [("version", .text "0.8.20"),
      ("errors", .list [.object
        [("severity", .text "warning"), ("formatted_message", .text "a"), ("formattedMessage", .text "b")]]),
      ("contracts", .object [("a.sol", .object [("A", .object [("evm", .object
        [("deployed_bytecode", .object
          [("opcodes", .text "STOP"), ("source_map", .text "0:1:0"), ("code", .text "00")])])])])]),
      ("sources", .object [("a.sol", .object [("id", .text "0"), ("legacyAST", .object [])])])]

/-- Where there are two names the first one wins, and the other one is kept; where there is only the second one, its
text is moved to the first. -/
theorem toJson_settles_and_keeps_secondNames : ∃ r x d y c, ofJson secondNames = .ok r ∧
    (∃ r', ofJson r.toJson = .ok r' ∧ r'.toJson = r.toJson) ∧
    (ReportPart.diagnostic 0).find? secondNames = some x ∧ (ReportPart.diagnostic 0).find? r.toJson = some d ∧
    d.get? "formattedMessage" = some (.text "b") ∧ d.get? "formatted_message" = some (.text "a") ∧
    (ReportPart.runtime "a.sol" "A").find? secondNames = some y ∧
    (ReportPart.runtime "a.sol" "A").find? r.toJson = some c ∧ c.get? "object" = some (.text "00") ∧
    c.get? "sourceMap" = some (.text "0:1:0") ∧ c.get? "opcodes" = some (.text "STOP") ∧
    secondNames.Finite ∧ Bundle.normalize r.toJson (.text "0.8.20") (.object []) .all {} =
      Bundle.normalize secondNames (.text "0.8.20") (.object []) .all {} := by
  obtain ⟨r, hr⟩ : ∃ r, ofJson secondNames = .ok r := ⟨_, rfl⟩
  have hfinite : secondNames.Finite := rfl
  obtain ⟨hagain, hparts, hsame⟩ := toJson_settles_and_keeps hr
  obtain ⟨d, hd, hkeptd⟩ := hparts (.diagnostic 0) _ rfl
  obtain ⟨c, hc, hkeptc⟩ := hparts (.runtime "a.sol" "A") _ rfl
  have hformatted := hkeptd.named _ List.mem_cons_self
  have hsecond := hkeptd.unread (k := "formatted_message") (by decide)
  have hcode := hkeptc.named _ List.mem_cons_self
  have hmap := hkeptc.named _ (List.mem_cons_of_mem _ List.mem_cons_self)
  have hopcodes := hkeptc.unread (k := "opcodes") (by decide)
  exact ⟨r, _, d, _, c, hr, hagain, rfl, hd, hformatted, hsecond, rfl, hc, hcode, hmap, hopcodes, hfinite,
    hsame hfinite _ _ _ _⟩

end CompileReport

end SolidityBuild
