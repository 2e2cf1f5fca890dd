import SolidityBuild.Proofs.Files.Listing
import SolidityBuild.Proofs.Json.Reading
import SolidityBuild.Proofs.Json.RoundTrip
import SolidityBuild.Proofs.Json.Surrogates
import SolidityBuild.Proofs.Tools.Frameworks

/-!
Reading a folder of records, where each record file yields a text or cannot be read for a reason that the system
gives. Every record file is read, in the order of the names and in no other; the first one that holds no record is
what the outcome complains about, and then no record is taken over at all.
-/

set_option autoImplicit false

namespace SolidityBuild

open Schema

namespace Framework

variable {files : Files} {folder path : Path} {paths : List Path} {d : Location}

/-! ## Complaints -/

/-- An error text about a record file. -/
inductive ComplainsOf (path : Path) : Text → Prop where
  | unreadable (reason : Text) : ComplainsOf path (unreadable path reason)
  | invalid (reason : Text) : ComplainsOf path (invalid path reason)

theorem complainsOf_of_readRecord {complaint : Text} (h : readRecord files path = .ok (.error complaint)) :
    ComplainsOf path complaint := by
  unfold readRecord at h
  split at h
  · cases h
    exact .unreadable _
  · exact nomatch h
  · exact nomatch h
  · split at h
    · cases h
      exact .invalid _
    · exact nomatch h
    · split at h
      · cases h
        exact .invalid _
      · exact nomatch h

/-- The first of the files that holds no record is complained about. -/
def FirstComplaint (files : Files) (paths : List Path) (complaint : Text) : Prop :=
  ∃ before path after, paths = before ++ path :: after ∧ (∀ p ∈ before, ∃ record, HoldsRecord files p record) ∧
    (¬ ∃ record, HoldsRecord files path record) ∧ ComplainsOf path complaint

theorem firstComplaint_of_readRecords {complaint : Text} (h : readRecords files paths = .ok (.error complaint)) :
    FirstComplaint files paths complaint := by
  induction paths with
  | nil => exact nomatch h
  | cons path rest ih =>
    rw [readRecords] at h
    rcases readRecord_cases files path with ⟨record, hread, hholds⟩ | ⟨complaint', hread⟩ | ⟨defect, hread, -⟩
    · rw [hread] at h
      rcases hrest : readRecords files rest with failure | (complaint' | records)
      · rw [hrest] at h
        cases h
      · rw [hrest] at h
        obtain rfl : complaint' = complaint := Except.error.inj (Except.ok.inj h)
        obtain ⟨before, path', after, rfl, hbefore, hfirst⟩ := ih hrest
        refine ⟨path :: before, path', after, rfl, ?_, hfirst⟩
        exact List.forall_mem_cons.mpr ⟨⟨record, hholds⟩, hbefore⟩
      · rw [hrest] at h
        cases h
    · rw [hread] at h
      obtain rfl : complaint' = complaint := Except.error.inj (Except.ok.inj h)
      refine ⟨[], path, rest, rfl, List.forall_mem_nil _, ?_, complainsOf_of_readRecord hread⟩
      rintro ⟨record, hholds⟩
      cases hread.symm.trans (readRecord_of_holds hholds)
    · rw [hread] at h
      cases h

/-! ## Files that are foreseen -/

/-- What may be expected of a record file: the system gives a reason why it cannot be read, or it holds a text in
which no whole number has too many digits. -/
inductive Foreseen (files : Files) (path : Path) : Prop where
  | unreadable {fault : SystemFault} (read : files.readOctets path = .error (.system fault))
  | text {text : Text} (read : files.readText path = .ok text)
      (digits : ∀ count, Json.parse text ≠ .error (.tooManyDigits count))

theorem Foreseen.not_unforeseen (h : Foreseen files path) {defect : Defect} : ¬ Unforeseen files path defect := by
  intro hunforeseen
  cases h with
  | unreadable read =>
    cases hunforeseen with
    | octets read' => cases read.symm.trans read'
    | digits read' =>
      rw [Files.readText, read] at read'
      cases read'
    | null read' => cases read.symm.trans read'
  | text read digits =>
    cases hunforeseen with
    | octets read' decode =>
      rw [Files.readText, read'] at read
      dsimp only at read
      rw [decode] at read
      cases read
    | digits read' parse =>
      obtain rfl := Except.ok.inj (read.symm.trans read')
      exact digits _ parse
    | null read' =>
      rw [Files.readText, read'] at read
      cases read

/-! ## The record files of a folder -/

/-- The names of the record files in a folder, in order. -/
def recordNames (files : Files) (d : Location) : List Text :=
  ((files.names d).filter fun name => name.endsWith recordSuffix).mergeSort Text.le

theorem mem_recordNames_iff {name : Text} :
    name ∈ recordNames files d ↔ files.node? (d ++ [name]) ≠ none ∧ name.endsWith recordSuffix = true := by
  rw [recordNames, List.mem_mergeSort, List.mem_filter, Files.mem_names_iff]

theorem pairwise_before_recordNames (h : files.WellFormed) (d : Location) :
    (recordNames files d).Pairwise Text.Before :=
  Text.pairwise_before_mergeSort ((h.nodup_names d).filter _)

theorem findIn_recordSuffix (hfolder : files.spot true folder = .ok ⟨d, some .folder⟩) :
    files.findIn folder recordSuffix = .ok ((recordNames files d).map folder.child) := by
  have hisFolder : files.isFolder folder = .ok true := Files.isFolder_iff.mpr ⟨d, hfolder⟩
  rw [Files.findIn, hisFolder, Files.readFolder, hfolder]
  rfl

/-! ## What is read of a folder -/

/-- What an outcome tells of files that are read one after the other: all of them hold records, which it has, or it has
none and complains about the first that holds none. -/
structure Tells (files : Files) (paths : List Path) (outcome : FrameworkOutcome) : Prop where
  success_iff : outcome.success = true ↔ ∀ path ∈ paths, ∃ record, HoldsRecord files path record
  records : outcome.success = true → List.Forall₂ (HoldsRecord files) paths outcome.records
  complaint : outcome.success = false → outcome.records = [] ∧
    ∃ complaint, outcome.complaint = some complaint ∧ FirstComplaint files paths complaint

theorem tells_succeeded {records : List BuildRecord} (h : List.Forall₂ (HoldsRecord files) paths records) :
    Tells files paths (.succeeded records) where
  success_iff := by
    refine iff_of_true rfl fun path hpath => ?_
    obtain ⟨record, -, hholds⟩ := exists_mem_of_forall₂ h.flip hpath
    exact ⟨record, hholds⟩
  records _ := h
  complaint hnot := nomatch hnot

theorem tells_failed {complaint : Text} (h : FirstComplaint files paths complaint) :
    Tells files paths (.failed complaint) where
  success_iff := by
    obtain ⟨before, path, after, rfl, -, hnone, -⟩ := h
    refine iff_of_false Bool.false_ne_true fun hall => hnone (hall path ?_)
    exact List.mem_append_right _ List.mem_cons_self
  records hsuccess := nomatch hsuccess
  complaint _ := ⟨rfl, complaint, rfl, h⟩

/-- Foreseen files come to an outcome that tells of them. -/
theorem exists_tells (hforeseen : ∀ path ∈ paths, Foreseen files path) :
    ∃ outcome, Tells files paths outcome ∧ (readRecords files paths).map (fun told =>
      match told with
      | .ok records => FrameworkOutcome.succeeded records
      | .error complaint => .failed complaint) = .ok outcome := by
  rcases readRecords_cases files paths with ⟨records, hread, hall⟩ | ⟨complaint, hread⟩ | ⟨defect, -, hfirst⟩
  · exact ⟨_, tells_succeeded hall, by rw [hread]; rfl⟩
  · exact ⟨_, tells_failed (firstComplaint_of_readRecords hread), by rw [hread]; rfl⟩
  · obtain ⟨before, path, after, rfl, -, hunforeseen⟩ := hfirst
    have hpath := hforeseen path (List.mem_append_right _ List.mem_cons_self)
    exact absurd hunforeseen hpath.not_unforeseen

/-- The order in which a tree lists its entries does not show in what is read of a folder. -/
theorem outcomeOfFolder_relisted {files' : Files} (h : files.WellFormed) (hrelisted : files.Relisted files')
    (folder : Path) : outcomeOfFolder files' folder = outcomeOfFolder files folder := by
  have hread : ∀ path, readRecord files' path = readRecord files path := by
    intro path
    rw [readRecord, readRecord, Files.readText_congr (hrelisted.spot_eq h path)]
  have hall : ∀ paths, readRecords files' paths = readRecords files paths := by
    intro paths
    induction paths with
    | nil => rfl
    | cons path rest ih => rw [readRecords, readRecords, hread, ih]
  have hisFolder : files'.isFolder folder = files.isFolder folder :=
    Files.holds_congr (hrelisted.spot_eq h folder) _
  simp only [outcomeOfFolder, hisFolder, hrelisted.findIn_eq h, hall]

/-- **A folder of records is read completely and in order, or not at all.** Its record files, which are the entries
with the ending of one, are taken in the strict order of their names, and the outcome tells of them; and a folder
that lists its entries in another order comes to the same outcome. -/
theorem folder_read_in_order_or_not (h : files.WellFormed)
    (hfolder : files.spot true folder = .ok ⟨d, some .folder⟩)
    (hforeseen : ∀ name, files.node? (d ++ [name]) ≠ none → name.endsWith recordSuffix = true →
      Foreseen files (folder.child name)) :
    ∃ (names : List Text) (outcome : FrameworkOutcome), names.Pairwise Text.Before ∧
      (∀ name, name ∈ names ↔ files.node? (d ++ [name]) ≠ none ∧ name.endsWith recordSuffix = true) ∧
      (outcomeOfFolder files folder).outcome = .ok outcome ∧ Tells files (names.map folder.child) outcome ∧
      ∀ files', files.Relisted files' → (outcomeOfFolder files' folder).outcome = .ok outcome := by
  have hisFolder : files.isFolder folder = .ok true := Files.isFolder_iff.mpr ⟨d, hfolder⟩
  have hpaths : ∀ path ∈ (recordNames files d).map folder.child, Foreseen files path := by
    intro path hpath
    obtain ⟨name, hname, rfl⟩ := List.mem_map.mp hpath
    obtain ⟨hnode, hsuffix⟩ := mem_recordNames_iff.mp hname
    exact hforeseen name hnode hsuffix
  obtain ⟨outcome, htells, hread⟩ := exists_tells hpaths
  have htold : (outcomeOfFolder files folder).outcome = .ok outcome := by
    exact (outcome_outcomeOfFolder hisFolder (findIn_recordSuffix hfolder)).trans hread
  refine ⟨recordNames files d, outcome, pairwise_before_recordNames h d, fun name => mem_recordNames_iff, htold,
    htells, ?_⟩
  intro files' hrelisted
  rw [outcomeOfFolder_relisted h hrelisted, htold]

/-! ## A folder with a file that may not be read -/

section Mixed

open Json

/-- The document of a record of a compilation of nothing. -/
def emptyRecord : Json := .object [("solcLongVersion", .text "0.8.20"), ("input", .object [])]

/-- A folder that lists its entries in no order: a file that may not be read, one that is no record file, and a
record. -/
def mixedFolder : Files :=
  (((Files.put {} ["out"] .folder).put ["out", "b.json"] .sealed).put ["out", "c.txt"] (.file [0xff])).put
    ["out", "a.json"] (.file (emptyRecord.render.flatMap Text.octetsOf))

def mixedPath : Path := ⟨0, ["out"]⟩

theorem parse_emptyRecord : Json.parse emptyRecord.render = .ok emptyRecord := by
  have hfree : ∀ s : String, Text.PairFree (Text.ofString s) := fun s => (Text.scalar_ofString s).pairFree
  have hinput : WellFormed Text.PairFree (.object [("input", .object [])]) :=
    WellFormed.empty.cons (by decide) (hfree "input") .empty
  exact parse_render (hinput.cons (by decide) (hfree "solcLongVersion") (.text (hfree "0.8.20")))

theorem readText_mixedFolder : mixedFolder.readText (mixedPath.child "a.json") = .ok emptyRecord.render := by
  decide +kernel

theorem readOctets_mixedFolder : mixedFolder.readOctets (mixedPath.child "b.json") =
    .error (Files.fault .denied (mixedPath.child "b.json")) := by
  decide +kernel

theorem wellFormed_mixedFolder : mixedFolder.WellFormed := by
  have hout : (Files.put {} ["out"] .folder).WellFormed :=
    Files.WellFormed.empty.put (by decide) rfl (by decide) (by decide) _
  have hsealed := hout.put (l := ["out", "b.json"]) (by decide) rfl (by decide) (by decide) .sealed
  have htext := hsealed.put (l := ["out", "c.txt"]) (by decide) rfl (by decide) (by decide) (.file [0xff])
  exact htext.put (by decide) rfl (by decide) (by decide) _

/-- The record is not taken over, since the file behind it may not be read, and the complaint names that file. -/
theorem folder_read_in_order_or_not_mixedFolder : ∃ outcome : FrameworkOutcome,
    (outcomeOfFolder mixedFolder mixedPath).outcome = .ok outcome ∧ outcome.success = false ∧ outcome.records = [] ∧
    ∃ complaint, outcome.complaint = some complaint ∧ ComplainsOf (mixedPath.child "b.json") complaint := by
  have hholds : HoldsRecord mixedFolder (mixedPath.child "a.json") ⟨"0.8.20", [], []⟩ :=
    ⟨_, _, readText_mixedFolder, parse_emptyRecord, rfl⟩
  have hdenied : ¬ ∃ record, HoldsRecord mixedFolder (mixedPath.child "b.json") record := by
    rintro ⟨record, text, document, htext, -, -⟩
    rw [Files.readText, readOctets_mixedFolder] at htext
    cases htext
  have hnames : ∀ name : Text, mixedFolder.node? ([Text.ofString "out"] ++ [name]) ≠ none →
      name.endsWith recordSuffix = true → name = "a.json" ∨ name = "b.json" := by
    intro name hnode hsuffix
    have hin : name ∈ mixedFolder.names ["out"] := Files.mem_names_iff.mpr hnode
    have hlisted : mixedFolder.names ["out"] = [Text.ofString "b.json", "c.txt", "a.json"] := rfl
    simp only [hlisted, List.mem_cons, List.not_mem_nil, or_false] at hin
    rcases hin with rfl | rfl | rfl
    · exact .inr rfl
    · exact absurd hsuffix (by decide)
    · exact .inl rfl
  have hforeseen : ∀ name : Text, mixedFolder.node? ([Text.ofString "out"] ++ [name]) ≠ none →
      name.endsWith recordSuffix = true → Foreseen mixedFolder (mixedPath.child name) := by
    intro name hnode hsuffix
    rcases hnames name hnode hsuffix with rfl | rfl
    · refine .text readText_mixedFolder fun count h => ?_
      cases parse_emptyRecord.symm.trans h
    · exact .unreadable readOctets_mixedFolder
  have hspot : mixedFolder.spot true mixedPath = .ok ⟨[Text.ofString "out"], some .folder⟩ := rfl
  obtain ⟨names, outcome, -, hmem, htold, htells, -⟩ :=
    folder_read_in_order_or_not wellFormed_mixedFolder hspot hforeseen
  have hdeniedName : Text.ofString "b.json" ∈ names := (hmem "b.json").mpr (by decide)
  have hfailed : outcome.success = false := by
    rw [Bool.eq_false_iff, ne_eq, htells.success_iff]
    intro hall
    exact hdenied (hall _ (List.mem_map_of_mem hdeniedName))
  obtain ⟨hrecords, complaint, hcomplaint, before, first, after, hsplit, -, hnone, habout⟩ := htells.complaint hfailed
  have hfirst : first ∈ names.map mixedPath.child := hsplit ▸ List.mem_append_right _ List.mem_cons_self
  obtain ⟨name, hname, rfl⟩ := List.mem_map.mp hfirst
  obtain ⟨hnode, hsuffix⟩ := (hmem name).mp hname
  rcases hnames name hnode hsuffix with rfl | rfl
  · exact absurd ⟨_, hholds⟩ hnone
  · exact ⟨outcome, htold, hfailed, hrecords, complaint, hcomplaint, habout⟩

end Mixed

end Framework

end SolidityBuild
