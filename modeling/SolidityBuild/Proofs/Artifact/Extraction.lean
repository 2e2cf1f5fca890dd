import SolidityBuild.Proofs.Document.CompileReport

/-!
Two ways to take artifacts out of a report. All contracts are taken as four matrices, filled by one scan of the
report; one contract is taken by a search for its name. The search finds something exactly where the matrices have
one row with that name, and what it finds is what stands in that row's cells.
-/

set_option autoImplicit false

namespace SolidityBuild

open Schema Json

/-! ## Matrices -/

namespace Matrix

variable {α β : Type}

/-- The rows of a matrix with their names alone, both in order; a row without cells is one. -/
def shape (m : Matrix α) : Table (List Text) := m.mapValues Table.keys

theorem shape_mapValues (f : α → β) (m : Matrix α) : shape (m.mapValues fun row => row.mapValues f) = m.shape := by
  rw [shape, shape, Table.mapValues_mapValues]
  congr 1
  funext row
  exact Table.keys_mapValues f row

theorem cell?_mapValues (f : α → β) (m : Matrix α) (path name : Text) :
    cell? (m.mapValues fun row => row.mapValues f) path name = (m.cell? path name).map f := by
  rw [cell?, cell?, Table.get?_mapValues]
  cases Table.get? m path with
  | none => rfl
  | some row => exact Table.get?_mapValues f row name

end Matrix

/-- The names of the contracts that a report document has under every path, in order. -/
def Json.contractNames (document : Json) : Table (List Text) :=
  (document.entriesAt "contracts").mapValues fun row => Table.keys (row.entries?.getD [])

/-- The artifacts of one contract stand in the four cells at its path and name. -/
structure ArtifactMatrix.Holds (m : ArtifactMatrix) (a : ContractArtifact) : Prop where
  creation : m.creation.cell? a.path a.name = some a.creation
  runtime : m.runtime.cell? a.path a.name = some a.runtime
  abi : m.abi.cell? a.path a.name = some a.abi
  sourceMap : m.sourceMap.cell? a.path a.name = some a.sourceMap

/-- The four matrices have the same rows with the same names. -/
structure ArtifactMatrix.HasShape (m : ArtifactMatrix) (rows : Table (List Text)) : Prop where
  creation : m.creation.shape = rows
  runtime : m.runtime.shape = rows
  abi : m.abi.shape = rows
  sourceMap : m.sourceMap.shape = rows

namespace CompileReport

variable {r : CompileReport}

/-! ## The scan -/

/-- The contracts of a report have the paths and names of its document. -/
theorem shape_contracts {document : Json} (h : CompileReport.ofJson document = .ok r) :
    Matrix.shape r.contracts = document.contractNames := by
  obtain ⟨-, -, -, hcontracts, -⟩ := parts_of_ofJson h
  refine (map_eq_map_iff_forall₂.mpr (hcontracts.imp fun e f hef => ?_)).symm
  obtain ⟨row, hrow, hcells⟩ := Decoder.table_eq_value hef.2
  obtain ⟨hnames, -⟩ := (Table.forall₂_entries_iff (R := fun x c => ContractReport.decoder x = .value c)).mp hcells
  rw [hef.1, hrow]
  exact congrArg (f.1, ·) hnames

theorem hasShape_extractAll (r : CompileReport) : r.extractAll.HasShape (Matrix.shape r.contracts) where
  creation := Matrix.shape_mapValues _ _
  runtime := Matrix.shape_mapValues _ _
  abi := Matrix.shape_mapValues _ _
  sourceMap := Matrix.shape_mapValues _ _

theorem cell?_extractAll_creation (r : CompileReport) (path name : Text) :
    r.extractAll.creation.cell? path name =
      (Matrix.cell? r.contracts path name).map fun c => c.machine.creation.code :=
  Matrix.cell?_mapValues _ _ path name

/-- The cells that a contract fills. -/
theorem holds_artifact {path name : Text} {c : ContractReport} (h : Matrix.cell? r.contracts path name = some c) :
    r.extractAll.Holds (c.artifact path name) := by
  constructor
  all_goals
    refine (Matrix.cell?_mapValues _ _ path name).trans ?_
    rw [h]
    rfl

/-! ## The search -/

/-- What the search finds is what stands in the cells with that name. -/
theorem mem_definitions_iff (hpaths : r.contracts.keys.Nodup) {name path : Text} {c : ContractReport} :
    (path, c) ∈ r.definitions name ↔ Matrix.cell? r.contracts path name = some c := by
  rw [definitions, List.mem_filterMap, Matrix.cell?, Option.bind_eq_some_iff]
  constructor
  · rintro ⟨⟨path', row⟩, hrow, hfound⟩
    obtain ⟨c', hc', heq⟩ := Option.map_eq_some_iff.mp hfound
    cases heq
    exact ⟨row, Table.get?_of_mem hpaths hrow, hc'⟩
  · rintro ⟨row, hrow, hc⟩
    exact ⟨(path, row), Table.mem_of_get? hrow, Option.map_eq_some_iff.mpr ⟨c, hc, rfl⟩⟩

theorem nodup_definitions (hpaths : r.contracts.keys.Nodup) (name : Text) : (r.definitions name).Nodup := by
  apply Table.nodup_of_nodup_keys
  rw [Table.keys, map_fst_definitions]
  exact (List.filter_sublist.map Prod.fst).nodup hpaths

/-- One contract is found where one row has a cell with its name. -/
theorem definitions_eq_singleton_iff (hpaths : r.contracts.keys.Nodup) {name path : Text} {c : ContractReport} :
    r.definitions name = [(path, c)] ↔
      (∀ path', (Matrix.cell? r.contracts path' name).isSome ↔ path' = path) ∧
        Matrix.cell? r.contracts path name = some c := by
  constructor
  · intro h
    have hcell : ∀ path' c', Matrix.cell? r.contracts path' name = some c' ↔ path' = path ∧ c' = c := by
      intro path' c'
      rw [← mem_definitions_iff hpaths, h, List.mem_singleton, Prod.mk.injEq]
    refine ⟨fun path' => ?_, (hcell path c).mpr ⟨rfl, rfl⟩⟩
    rw [Option.isSome_iff_exists]
    constructor
    · rintro ⟨c', hc'⟩
      exact ((hcell path' c').mp hc').1
    · rintro rfl
      exact ⟨c, (hcell path' c).mpr ⟨rfl, rfl⟩⟩
  · rintro ⟨honly, hc⟩
    refine List.perm_singleton.mp ((List.perm_ext_iff_of_nodup (nodup_definitions hpaths name)
      (List.nodup_singleton _)).mpr ?_)
    rintro ⟨path', c'⟩
    rw [mem_definitions_iff hpaths, List.mem_singleton, Prod.mk.injEq]
    constructor
    · intro hc'
      obtain rfl := (honly path').mp (Option.isSome_iff_exists.mpr ⟨c', hc'⟩)
      exact ⟨rfl, Option.some.inj (hc'.symm.trans hc)⟩
    · rintro ⟨rfl, rfl⟩
      exact hc

theorem extractOne_eq_ok_iff {name : Text} {a : ContractArtifact} :
    r.extractOne name = .ok a ↔ ∃ path c, r.definitions name = [(path, c)] ∧ a = c.artifact path name := by
  rw [extractOne]
  match r.definitions name with
  | [] => simp
  | [(path, c)] =>
    dsimp only
    rw [Except.ok.injEq]
    constructor
    · rintro rfl
      exact ⟨path, c, rfl, rfl⟩
    · rintro ⟨path', c', hsame, rfl⟩
      cases hsame
      rfl
  | _ :: _ :: _ => simp

theorem extract_contract_eq_ok_iff {name : Text} {artifacts : Artifacts} :
    r.extract (.contract name) = .ok artifacts ↔ ∃ a, r.extractOne name = .ok a ∧ artifacts = .single a := by
  rw [extract]
  cases r.extractOne name with
  | error failure => exact iff_of_false (fun h => nomatch h) fun ⟨_, h, _⟩ => nomatch h
  | ok a =>
    constructor
    · intro h
      cases h
      exact ⟨a, rfl, rfl⟩
    · rintro ⟨a', h, rfl⟩
      cases h
      rfl

/-- **One contract and all contracts agree.** The four matrices of a report have a row for every path of the report
document, one without contracts too, with the names that stand there, all in the order of the document. Extracting
the contract of a name gives artifacts from a path exactly if that path's row is the only one with the name; and
whatever it gives are the artifacts of that name in the four cells at that path. -/
theorem extractions_agree (hpaths : r.contracts.keys.Nodup) :
    ∃ m, r.extract .all = .ok (.matrix m) ∧ m.HasShape (Matrix.shape r.contracts) ∧
      (∀ document, CompileReport.ofJson document = .ok r → Matrix.shape r.contracts = document.contractNames) ∧
      ∀ name,
        (∀ path, (∃ a, r.extract (.contract name) = .ok (.single a) ∧ a.path = path) ↔
          ∀ path', (m.creation.cell? path' name).isSome ↔ path' = path) ∧
        ∀ artifacts, r.extract (.contract name) = .ok artifacts →
          ∃ a, artifacts = .single a ∧ a.name = name ∧ m.Holds a := by
  refine ⟨r.extractAll, rfl, hasShape_extractAll r, fun _ => shape_contracts, fun name => ⟨fun path => ?_, ?_⟩⟩
  · -- a cell is there for what the search finds
    have hcell : ∀ path', (r.extractAll.creation.cell? path' name).isSome =
        (Matrix.cell? r.contracts path' name).isSome := by
      intro path'
      rw [cell?_extractAll_creation, Option.isSome_map]
    simp only [hcell]
    constructor
    · rintro ⟨a, hextract, rfl⟩
      obtain ⟨a', hone, hsingle⟩ := extract_contract_eq_ok_iff.mp hextract
      cases hsingle
      obtain ⟨path, c, hfound, rfl⟩ := extractOne_eq_ok_iff.mp hone
      exact ((definitions_eq_singleton_iff hpaths).mp hfound).1
    · intro honly
      obtain ⟨c, hc⟩ := Option.isSome_iff_exists.mp ((honly path).mpr rfl)
      have hfound := (definitions_eq_singleton_iff hpaths).mpr ⟨honly, hc⟩
      exact ⟨_, extract_contract_eq_ok_iff.mpr ⟨_, extractOne_eq_ok_iff.mpr ⟨path, c, hfound, rfl⟩, rfl⟩, rfl⟩
  · intro artifacts hextract
    obtain ⟨a, hone, rfl⟩ := extract_contract_eq_ok_iff.mp hextract
    obtain ⟨path, c, hfound, rfl⟩ := extractOne_eq_ok_iff.mp hone
    exact ⟨_, rfl, rfl, holds_artifact ((definitions_eq_singleton_iff hpaths).mp hfound).2⟩

/-- A report with a name under two paths, and a path without contracts between them. -/
def scattered : CompileReport where
  diagnostics := []
  contracts :=
    [("b.sol", [("C", ⟨[], .empty, []⟩), ("B", ⟨[[("type", .text "event")]], .empty, []⟩)]), ("empty.sol", []),
      ("a.sol", [("C", ⟨[], .empty, []⟩)])]
  sources := []

/-- The path without contracts keeps its row; `B` is in one row and is extracted from there, `C` is in two and is
not extracted. -/
theorem extractions_agree_of_scattered :
    scattered.contracts.keys.Nodup ∧ ∃ m, scattered.extract .all = .ok (.matrix m) ∧
      m.abi.shape = ([("b.sol", ["C", "B"]), ("empty.sol", []), ("a.sol", ["C"])] : List (Text × List Text)) ∧
      (∀ path', (m.creation.cell? path' "B").isSome ↔ path' = "b.sol") ∧
      m.abi.cell? "b.sol" "B" = some ([[("type", .text "event")]] : List (List (Text × Json))) ∧
      ¬ ∃ path, ∀ path', (m.creation.cell? path' "C").isSome ↔ path' = path := by
  have hpaths : scattered.contracts.keys.Nodup := by decide
  obtain ⟨m, hall, hshape, -, hone⟩ := extractions_agree hpaths
  refine ⟨hpaths, m, hall, hshape.abi, ?_, ?_, ?_⟩
  · exact ((hone "B").1 "b.sol").mp ⟨_, rfl, rfl⟩
  · obtain ⟨a, heq, -, hcells⟩ := (hone "B").2 _ rfl
    cases heq
    exact hcells.abi
  · rintro ⟨path, honly⟩
    obtain ⟨a, hextract, -⟩ := ((hone "C").1 path).mpr honly
    exact nomatch hextract

end CompileReport

end SolidityBuild
