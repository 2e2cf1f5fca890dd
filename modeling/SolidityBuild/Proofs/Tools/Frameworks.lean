import SolidityBuild.Proofs.Files.Changing
import SolidityBuild.Proofs.Narrated
import SolidityBuild.Tools.Framework
import Mathlib.Data.List.Forall2

/-!
What the run of a build framework comes to. A run that ends well is told by the files in the folder of records:
it succeeds if every one of them holds a record, and the first one that does not decides what becomes of it
otherwise. Files that cannot be read, texts that are no JSON and documents that are no record are complained
about; octets that are no UTF-8 and whole numbers of too many digits are foreseen by nothing, and no outcome
comes of them. Every other run fails with an error text.
-/

set_option autoImplicit false

namespace SolidityBuild

open Schema

namespace Framework

variable {files : Files} {path : Path} {paths : List Path} {record : BuildRecord}

/-! ## One file -/

/-- A file holds a record: it is a text that spells a document that spells the record. -/
def HoldsRecord (files : Files) (path : Path) (record : BuildRecord) : Prop :=
  ∃ text document, files.readText path = .ok text ∧ Json.parse text = .ok document ∧
    BuildRecord.ofJson document = .ok record

/-- What nothing foresees in a file of records. -/
inductive Unforeseen (files : Files) (path : Path) : Defect → Prop where
  | octets {octets : Octets} {fault : Text.OctetFault} (read : files.readOctets path = .ok octets)
      (decode : Text.decodeUtf8 octets = .error fault) : Unforeseen files path (.octets fault)
  | digits {text : Text} {count : Nat} (read : files.readText path = .ok text)
      (parse : Json.parse text = .error (.tooManyDigits count)) : Unforeseen files path (.tooManyDigits count)
  | null (read : files.readOctets path = .error .nullInPath) : Unforeseen files path .nullInPath

/-- A file holds a record, or it is complained about, or it holds something that nothing foresees. -/
theorem readRecord_cases (files : Files) (path : Path) :
    (∃ record, readRecord files path = .ok (.ok record) ∧ HoldsRecord files path record) ∨
      (∃ complaint, readRecord files path = .ok (.error complaint)) ∨
        ∃ defect, readRecord files path = .error (.unforeseen defect) ∧ Unforeseen files path defect := by
  unfold readRecord
  cases htext : files.readText path with
  | error fault =>
    -- a text is not read because the octets are not, or because they are no text
    rw [Files.readText] at htext
    cases hoctets : files.readOctets path with
    | error fault' =>
      rw [hoctets] at htext
      cases htext
      cases fault' with
      | system fault => exact .inr (.inl ⟨_, rfl⟩)
      | nullInPath => exact .inr (.inr ⟨_, rfl, .null hoctets⟩)
    | ok octets =>
      rw [hoctets] at htext
      dsimp only at htext
      cases hdecode : Text.decodeUtf8 octets with
      | error fault' =>
        rw [hdecode] at htext
        cases htext
        exact .inr (.inr ⟨_, rfl, .octets hoctets hdecode⟩)
      | ok text =>
        rw [hdecode] at htext
        cases htext
  | ok text =>
    dsimp only
    cases hparse : Json.parse text with
    | error fault =>
      cases fault with
      | notJson fault => exact .inr (.inl ⟨_, rfl⟩)
      | tooManyDigits count => exact .inr (.inr ⟨_, rfl, .digits htext hparse⟩)
    | ok document =>
      dsimp only
      cases hrecord : BuildRecord.ofJson document with
      | error rejection => exact .inr (.inl ⟨_, rfl⟩)
      | ok record => exact .inl ⟨record, rfl, text, document, htext, hparse, hrecord⟩

theorem readRecord_of_holds (h : HoldsRecord files path record) : readRecord files path = .ok (.ok record) := by
  obtain ⟨text, document, htext, hparse, hrecord⟩ := h
  rw [readRecord, htext]
  dsimp only
  rw [hparse]
  dsimp only
  rw [hrecord]

theorem readRecord_of_unforeseen {defect : Defect} (h : Unforeseen files path defect) :
    readRecord files path = .error (.unforeseen defect) := by
  cases h with
  | octets read decode =>
    rw [readRecord, Files.readText, read]
    dsimp only
    rw [decode]
  | digits read parse =>
    rw [readRecord, read]
    dsimp only
    rw [parse]
    rfl
  | null read =>
    rw [readRecord, Files.readText, read]

/-! ## Several files -/

/-- The first of the files that holds no record holds something that nothing foresees. -/
def FirstUnforeseen (files : Files) (paths : List Path) (defect : Defect) : Prop :=
  ∃ before path after, paths = before ++ path :: after ∧ (∀ p ∈ before, ∃ record, HoldsRecord files p record) ∧
    Unforeseen files path defect

/-- **Files are read up to the first that holds no record.** -/
theorem readRecords_cases (files : Files) (paths : List Path) :
    (∃ records, readRecords files paths = .ok (.ok records) ∧ List.Forall₂ (HoldsRecord files) paths records) ∨
      (∃ complaint, readRecords files paths = .ok (.error complaint)) ∨
        ∃ defect, readRecords files paths = .error (.unforeseen defect) ∧ FirstUnforeseen files paths defect := by
  induction paths with
  | nil => exact .inl ⟨[], rfl, .nil⟩
  | cons path rest ih =>
    rw [readRecords]
    rcases readRecord_cases files path with ⟨record, hread, hholds⟩ | ⟨complaint, hread⟩ | ⟨defect, hread, hnot⟩
    · rw [hread]
      rcases ih with ⟨records, hrest, hall⟩ | ⟨complaint, hrest⟩ | ⟨defect, hrest, hfirst⟩
      · exact .inl ⟨record :: records, by rw [hrest]; rfl, .cons hholds hall⟩
      · exact .inr (.inl ⟨complaint, by rw [hrest]; rfl⟩)
      · obtain ⟨before, path', after, rfl, hbefore, hdefect⟩ := hfirst
        refine .inr (.inr ⟨defect, by rw [hrest]; rfl, path :: before, path', after, rfl, ?_, hdefect⟩)
        exact List.forall_mem_cons.mpr ⟨⟨record, hholds⟩, hbefore⟩
    · exact .inr (.inl ⟨complaint, by rw [hread]; rfl⟩)
    · exact .inr (.inr ⟨defect, by rw [hread]; rfl, [], path, rest, rfl, List.forall_mem_nil _, hnot⟩)

theorem readRecords_of_holds {records : List BuildRecord} (h : List.Forall₂ (HoldsRecord files) paths records) :
    readRecords files paths = .ok (.ok records) := by
  induction h with
  | nil => rfl
  | cons hholds _ ih =>
    rw [readRecords, readRecord_of_holds hholds, ih]
    rfl

theorem readRecords_of_firstUnforeseen {defect : Defect} (h : FirstUnforeseen files paths defect) :
    readRecords files paths = .error (.unforeseen defect) := by
  obtain ⟨before, path, after, rfl, hbefore, hdefect⟩ := h
  induction before with
  | nil =>
    rw [List.nil_append, readRecords, readRecord_of_unforeseen hdefect]
    rfl
  | cons first before ih =>
    obtain ⟨⟨record, hholds⟩, hrest⟩ := List.forall_mem_cons.mp hbefore
    rw [List.cons_append, readRecords, readRecord_of_holds hholds, ih hrest]
    rfl

/-! ## The folder of records -/

/-- The folder of a project in which the framework leaves its records. -/
def recordsFolder (framework : Framework) (folder : Path) : Path :=
  ⟨folder.slashes, folder.parts ++ framework.records⟩

/-- The folder is there, and each of its files, in the order of their names, holds a record. -/
def HoldsRecords (files : Files) (folder : Path) (records : List BuildRecord) : Prop :=
  files.isFolder folder = .ok true ∧ ∃ paths, files.findIn folder recordSuffix = .ok paths ∧
    List.Forall₂ (HoldsRecord files) paths records

/-- What nothing foresees of a folder of records: that it cannot be asked for, which is so only of paths that are
too long, or what stands in its files. -/
inductive FolderUnforeseen (files : Files) (folder : Path) : Defect → Prop where
  | unasked {fault : FileFault} (asked : files.isFolder folder = .error fault) :
      FolderUnforeseen files folder fault.defect
  | record {paths : List Path} {defect : Defect} (found : files.isFolder folder = .ok true)
      (listed : files.findIn folder recordSuffix = .ok paths) (first : FirstUnforeseen files paths defect) :
      FolderUnforeseen files folder defect

/-- A folder can be listed. -/
theorem exists_findIn {folder : Path} (h : files.isFolder folder = .ok true) (tail : Text) :
    ∃ paths, files.findIn folder tail = .ok paths := by
  obtain ⟨location, node, hspot, hnode⟩ := Files.exists_spot_of_holds h
  obtain rfl : node = .folder := by
    cases node with
    | folder => rfl
    | _ => exact nomatch hnode
  rw [Files.findIn, h, Files.readFolder, hspot]
  exact ⟨_, rfl⟩

theorem outcome_foresee {α : Type} (x : Except FileFault α) :
    (Files.foresee x).outcome = x.mapError fun fault => .unforeseen fault.defect := by
  cases x <;> rfl

/-- What is told by a folder that is there and was listed. -/
theorem outcome_outcomeOfFolder {folder : Path} (hfolder : files.isFolder folder = .ok true)
    (hlisted : files.findIn folder recordSuffix = .ok paths) :
    (outcomeOfFolder files folder).outcome =
      (readRecords files paths).map fun told =>
        match told with
        | .ok records => .succeeded records
        | .error complaint => .failed complaint := by
  rw [outcomeOfFolder, Narrated.outcome_bind, outcome_foresee, hfolder]
  change (Files.foresee (files.findIn folder recordSuffix) >>= _).outcome = _
  rw [Narrated.outcome_bind, outcome_foresee, hlisted]
  change (Narrated.ofExcept (readRecords files paths) >>= _).outcome = _
  rw [Narrated.outcome_bind, Narrated.outcome_ofExcept]
  rcases readRecords files paths with failure | (complaint | records) <;> rfl

/-- **What a folder of records tells.** -/
theorem outcomeOfFolder_cases (files : Files) (folder : Path) :
    (∃ records, (outcomeOfFolder files folder).outcome = .ok (.succeeded records) ∧
        HoldsRecords files folder records) ∨
      (∃ complaint, (outcomeOfFolder files folder).outcome = .ok (.failed complaint)) ∨
        ∃ defect, (outcomeOfFolder files folder).outcome = .error (.unforeseen defect) ∧
          FolderUnforeseen files folder defect := by
  cases hfolder : files.isFolder folder with
  | error fault =>
    refine .inr (.inr ⟨_, ?_, .unasked hfolder⟩)
    rw [outcomeOfFolder, Narrated.outcome_bind, outcome_foresee, hfolder]
    rfl
  | ok found =>
    cases found with
    | false =>
      refine .inr (.inl ⟨"Build-info directory not found: " ++ folder.text, ?_⟩)
      rw [outcomeOfFolder, Narrated.outcome_bind, outcome_foresee, hfolder]
      rfl
    | true =>
      obtain ⟨paths, hlisted⟩ := exists_findIn hfolder recordSuffix
      rw [outcome_outcomeOfFolder hfolder hlisted]
      rcases readRecords_cases files paths with
        ⟨records, hread, hall⟩ | ⟨complaint, hread⟩ | ⟨defect, hread, hfirst⟩
      · exact .inl ⟨records, by rw [hread]; rfl, hfolder, paths, hlisted, hall⟩
      · exact .inr (.inl ⟨complaint, by rw [hread]; rfl⟩)
      · exact .inr (.inr ⟨defect, by rw [hread]; rfl, .record hfolder hlisted hfirst⟩)

theorem outcomeOfFolder_of_holds {folder : Path} {records : List BuildRecord}
    (h : HoldsRecords files folder records) :
    (outcomeOfFolder files folder).outcome = .ok (.succeeded records) := by
  obtain ⟨hfolder, paths, hlisted, hall⟩ := h
  rw [outcome_outcomeOfFolder hfolder hlisted, readRecords_of_holds hall]
  rfl

theorem outcomeOfFolder_of_unforeseen {folder : Path} {defect : Defect}
    (h : FolderUnforeseen files folder defect) :
    (outcomeOfFolder files folder).outcome = .error (.unforeseen defect) := by
  cases h with
  | unasked asked =>
    rw [outcomeOfFolder, Narrated.outcome_bind, outcome_foresee, asked]
    rfl
  | record found listed first =>
    rw [outcome_outcomeOfFolder found listed, readRecords_of_firstUnforeseen first]
    rfl

theorem outcomeOfFolder_succeeded_iff {folder : Path} {records : List BuildRecord} :
    (outcomeOfFolder files folder).outcome = .ok (.succeeded records) ↔ HoldsRecords files folder records := by
  constructor
  · intro h
    rcases outcomeOfFolder_cases files folder with
      ⟨records', htold, hholds⟩ | ⟨complaint, htold⟩ | ⟨defect, htold, -⟩
    · have heq := Except.ok.inj (htold.symm.trans h)
      rwa [← (FrameworkOutcome.mk.inj heq).2.1]
    · exact nomatch htold.symm.trans h
    · exact nomatch htold.symm.trans h
  · exact outcomeOfFolder_of_holds

theorem outcomeOfFolder_fails_iff {folder : Path} {failure : Failure} :
    (outcomeOfFolder files folder).outcome = .error failure ↔
      ∃ defect, FolderUnforeseen files folder defect ∧ failure = .unforeseen defect := by
  constructor
  · intro h
    rcases outcomeOfFolder_cases files folder with
      ⟨records, htold, -⟩ | ⟨complaint, htold⟩ | ⟨defect, htold, hdefect⟩
    · exact nomatch htold.symm.trans h
    · exact nomatch htold.symm.trans h
    · exact ⟨defect, hdefect, Except.error.inj (h.symm.trans htold)⟩
  · rintro ⟨defect, hdefect, rfl⟩
    exact outcomeOfFolder_of_unforeseen hdefect

/-! ## Runs -/

section Runs

variable (framework : Framework) (files : Files) (folder : Path) (timeLimit : Nat) (w : Workbench)

/-- The command of a run. -/
def runCommand : Command := ⟨framework.command, timeLimit, some folder.text, none⟩

/-- How the command of a run ends. -/
def ended : CommandOutcome := w.respond w.history.length (framework.runCommand folder timeLimit)

/-- The outcome of a run. -/
def outcomeOf : Except Failure FrameworkOutcome := ((framework.build files folder timeLimit).result w).2

/-- What a run comes to by the way in which its command ends. -/
theorem outcomeOf_eq : framework.outcomeOf files folder timeLimit w =
    match framework.ended folder timeLimit w with
    | .notFound => .ok (.failed (InvocationFault.notFound (framework.command.headD [])).message)
    | .timedOut => .ok (.failed (InvocationFault.timedOut framework.command).message)
    | .finished code stdout stderr =>
      if code = 0 then (outcomeOfFolder files (framework.recordsFolder folder)).outcome
      else .ok (.failed (if stderr.trim = [] then stdout.trim else stderr.trim)) := by
  have hrun : (w.run ⟨framework.command, timeLimit, some folder.text, none⟩).2 =
      framework.ended folder timeLimit w := rfl
  rw [outcomeOf, build, Task.result_bind, Task.result_tell, follow_ok, Task.result_bind, Task.result_change,
    follow_ok, hrun]
  cases framework.ended folder timeLimit w with
  | notFound => rfl
  | timedOut => rfl
  | finished code stdout stderr =>
    dsimp only
    by_cases hcode : code = 0
    · rw [if_neg (not_not_intro hcode), if_pos hcode]
      rfl
    · rw [if_pos hcode, if_neg hcode]
      rfl

/-- The command of a run ends with code 0. -/
def EndsWell : Prop := ∃ stdout stderr, framework.ended folder timeLimit w = .finished 0 stdout stderr

/-- A run ends well and comes to what its folder tells, or it fails with an error text. -/
theorem outcomeOf_cases :
    (framework.EndsWell folder timeLimit w ∧ framework.outcomeOf files folder timeLimit w =
        (outcomeOfFolder files (framework.recordsFolder folder)).outcome) ∨
      ¬ framework.EndsWell folder timeLimit w ∧
        ∃ complaint, framework.outcomeOf files folder timeLimit w = .ok (.failed complaint) := by
  rw [outcomeOf_eq, EndsWell]
  cases framework.ended folder timeLimit w with
  | notFound => exact .inr ⟨(fun ⟨_, _, h⟩ => nomatch h), _, rfl⟩
  | timedOut => exact .inr ⟨(fun ⟨_, _, h⟩ => nomatch h), _, rfl⟩
  | finished code stdout stderr =>
    by_cases hcode : code = 0
    · subst hcode
      exact .inl ⟨⟨stdout, stderr, rfl⟩, rfl⟩
    · refine .inr ⟨?_, _, if_neg hcode⟩
      rintro ⟨stdout', stderr', h⟩
      exact hcode (CommandOutcome.finished.inj h).1

/-- **What the run of a build framework comes to.** It succeeds exactly if its command ends with code 0 and the
folder of records is there and every record file in it holds a record, and then with these records in order; no
outcome comes of it exactly if the command ends with code 0 and the first file that holds no record (or the path
of the folder) is of the kind that nothing foresees; and otherwise it fails with an error text. -/
theorem run_comes_to :
    (∀ records, framework.outcomeOf files folder timeLimit w = .ok (.succeeded records) ↔
      framework.EndsWell folder timeLimit w ∧ HoldsRecords files (framework.recordsFolder folder) records) ∧
    (∀ failure, framework.outcomeOf files folder timeLimit w = .error failure ↔
      framework.EndsWell folder timeLimit w ∧ ∃ defect,
        FolderUnforeseen files (framework.recordsFolder folder) defect ∧ failure = .unforeseen defect) ∧
    ((∃ records, framework.outcomeOf files folder timeLimit w = .ok (.succeeded records)) ∨
      (∃ complaint, framework.outcomeOf files folder timeLimit w = .ok (.failed complaint)) ∨
        ∃ failure, framework.outcomeOf files folder timeLimit w = .error failure) := by
  rcases framework.outcomeOf_cases files folder timeLimit w with ⟨hwell, heq⟩ | ⟨hill, complaint, heq⟩
  · rw [heq]
    refine ⟨fun records => ?_, fun failure => ?_, ?_⟩
    · rw [outcomeOfFolder_succeeded_iff, and_iff_right hwell]
    · rw [outcomeOfFolder_fails_iff, and_iff_right hwell]
    · rcases outcomeOfFolder_cases files (framework.recordsFolder folder) with
        ⟨records, htold, -⟩ | htold | ⟨defect, htold, -⟩
      · exact .inl ⟨records, htold⟩
      · exact .inr (.inl htold)
      · exact .inr (.inr ⟨_, htold⟩)
  · rw [heq]
    refine ⟨fun records => ?_, fun failure => ?_, .inr (.inl ⟨complaint, rfl⟩)⟩
    · exact iff_of_false (fun h => nomatch h) fun h => hill h.1
    · exact iff_of_false (fun h => nomatch h) fun h => hill h.1

end Runs

/-- One record file, which holds an octet that no text begins with. -/
def undecodableRecord : Files where
  entries :=
    [(["artifacts"], .folder), (["artifacts", "build-info"], .folder),
      (["artifacts", "build-info", "a.json"], .file [0xff])]

/-- A bench on which every command ends with code 0 and prints nothing. -/
def quietBench : Workbench where
  onPath := []
  scriptsFolder := "/opt/venv/bin"
  inScripts := []
  installer := "/usr/bin/python3"
  installable := []
  respond _ _ := .finished 0 [] []

/-- No outcome comes of a run that leaves such a file. -/
theorem no_outcome_of_undecodableRecord :
    ¬ ∃ outcome, ((hardhat.build undecodableRecord ⟨0, []⟩ 600).result quietBench).2 = .ok outcome := by
  have hfolder : undecodableRecord.isFolder ⟨0, ["artifacts", "build-info"]⟩ = .ok true := by decide +kernel
  have hnames : undecodableRecord.readFolder ⟨0, ["artifacts", "build-info"]⟩ = .ok ["a.json"] := by
    decide +kernel
  have hlisted : undecodableRecord.findIn ⟨0, ["artifacts", "build-info"]⟩ recordSuffix =
      .ok [⟨0, ["artifacts", "build-info", "a.json"]⟩] := by
    have hkept : [Text.ofString "a.json"].filter (fun name => name.endsWith recordSuffix) =
        [Text.ofString "a.json"] := by decide
    rw [Files.findIn, hfolder, hnames]
    change Except.ok ((([Text.ofString "a.json"].filter fun name => name.endsWith recordSuffix).mergeSort
      Text.le).map _) = _
    rw [hkept, List.mergeSort_singleton]
    rfl
  have hread : undecodableRecord.readOctets ⟨0, ["artifacts", "build-info", "a.json"]⟩ = .ok [0xff] := by
    decide +kernel
  have hdecode : Text.decodeUtf8 [0xff] = .error ⟨0, 0xff, 1, .invalidStart⟩ := by decide +kernel
  have hrun : ((hardhat.build undecodableRecord ⟨0, []⟩ 600).result quietBench).2 =
      .error (.unforeseen (.octets ⟨0, 0xff, 1, .invalidStart⟩)) := by
    change hardhat.outcomeOf undecodableRecord ⟨0, []⟩ 600 quietBench = _
    rw [outcomeOf_eq]
    exact outcomeOfFolder_of_unforeseen
      (.record hfolder hlisted ⟨[], _, [], rfl, List.forall_mem_nil _, .octets hread hdecode⟩)
  rintro ⟨outcome, houtcome⟩
  exact nomatch hrun.symm.trans houtcome

end Framework

end SolidityBuild
