import SolidityBuild.Proofs.Project.Collected

/-!
Projects that cannot be read. The texts of the sources and of the remappings are read one after the other, and only
if a file is found; a path that cannot even be asked whether it leads to a file is a fault that nothing foresees. A
file that yields no text is the only other reason why the sources and the remappings are not gathered.
-/

set_option autoImplicit false

namespace SolidityBuild

/-- What cannot be asked of a path cannot be asked as the path is too long. -/
theorem Files.tooLong_of_holds_fails {files : Files} {test : Node → Bool} {path : Path} {fault : FileFault}
    (h : files.holds test path = .error fault) : ∃ f : SystemFault, fault = .system f ∧ f.cause = .nameTooLong := by
  rw [holds] at h
  split at h
  · cases h
  · split at h
    · exact ⟨_, (Except.error.inj h).symm, ‹_›⟩
    · cases h
  · cases h

namespace Project

variable {files : Files} {folder path : Path} {places : List Location} {failure : Failure}

/-! ## One file -/

/-- A file that yields no text: reading it fails, and not because there is no file. -/
def Unreadable (files : Files) (path : Path) : Prop :=
  files.isFile path ≠ .ok false ∧ ∃ fault, files.readText path = .error fault

/-- The path of a file that is there holds no null. -/
theorem readText_ne_nullInPath (hfile : files.isFile path = .ok true) :
    files.readText path ≠ .error (.file .nullInPath) := by
  obtain ⟨location, node, hspot, -⟩ := Files.exists_spot_of_holds hfile
  have hoctets : files.readOctets path ≠ .error .nullInPath := by
    rw [Files.readOctets, Files.target_of_spot hspot]
    intro heq
    cases node <;> cases heq
  intro hread
  rw [Files.readText] at hread
  cases hasked : files.readOctets path with
  | error fault =>
    rw [hasked] at hread
    exact hoctets (hasked.trans (congrArg Except.error (TextFault.file.inj (Except.error.inj hread))))
  | ok octets =>
    rw [hasked] at hread
    dsimp only at hread
    cases hdecode : Text.decodeUtf8 octets with
    | error fault =>
      rw [hdecode] at hread
      cases hread
    | ok text =>
      rw [hdecode] at hread
      cases hread

/-- A file that is there is read, or it is known why it is not. -/
theorem readText_fails (hfile : files.isFile path = .ok true) (h : readText files path = .error failure) :
    (∃ fault, failure = .sourceUnreadable fault) ∧ ∃ fault, files.readText path = .error fault := by
  rw [readText] at h
  rcases hread : files.readText path with ((fault | _) | fault) | text
  · rw [hread] at h
    exact ⟨⟨_, (Except.error.inj h).symm⟩, _, rfl⟩
  · exact absurd hread (readText_ne_nullInPath hfile)
  · rw [hread] at h
    exact ⟨⟨_, (Except.error.inj h).symm⟩, _, rfl⟩
  · rw [hread] at h
    cases h

/-- A text that is not had was not asked for, or its file yields none. -/
theorem fileText_fails (h : fileText files path = .error failure) :
    (∃ fault, files.isFile path = .error fault ∧ failure = .unforeseen fault.defect) ∨
      (∃ fault, failure = .sourceUnreadable fault) ∧ Unreadable files path := by
  rw [fileText] at h
  rcases hfile : files.isFile path with fault | (_ | _)
  · rw [hfile] at h
    exact .inl ⟨fault, rfl, (Except.error.inj h).symm⟩
  · rw [hfile] at h
    cases h
  · rw [hfile] at h
    cases hread : readText files path with
    | ok text =>
      rw [hread] at h
      cases h
    | error failure' =>
      rw [hread] at h
      obtain rfl := Except.error.inj h
      obtain ⟨hfault, hunread⟩ := readText_fails hfile hread
      refine .inr ⟨hfault, ?_, hunread⟩
      rw [hfile]
      intro heq
      cases heq

theorem fileText_of_unreadable (h : Unreadable files path) (text : Option Text) : fileText files path ≠ .ok text := by
  obtain ⟨hfile, fault, hread⟩ := h
  intro hhad
  rw [fileText] at hhad
  rcases hasked : files.isFile path with fault' | (_ | _)
  · rw [hasked] at hhad
    cases hhad
  · exact hfile hasked
  · rw [hasked, readText, hread] at hhad
    cases fault with
    | octets fault => cases hhad
    | file fault => cases fault <;> cases hhad

/-! ## All files -/

variable {sources : Table SourceText}

/-- The induction is on the places: the first text that is not had is why no sources are. -/
theorem fileText_of_sourcesAt_fails (h : (sourcesAt files folder places).outcome = .error failure) :
    ∃ place ∈ places, fileText files (folder.under place) = .error failure := by
  induction places with
  | nil => exact nomatch h
  | cons place rest ih =>
    rw [outcome_sourcesAt_cons] at h
    rcases bind_eq_error h with hplace | ⟨text, -, h⟩
    · exact ⟨place, List.mem_cons_self, hplace⟩
    rcases bind_eq_error h with hrest | ⟨others, -, h⟩
    · obtain ⟨later, hlater, hfails⟩ := ih hrest
      exact ⟨later, List.mem_cons_of_mem place hlater, hfails⟩
    · exact nomatch h

theorem fileText_of_sourcesAt (h : (sourcesAt files folder places).outcome = .ok sources) :
    ∀ place ∈ places, ∃ text, fileText files (folder.under place) = .ok text := by
  induction places generalizing sources with
  | nil => exact fun place hplace => absurd hplace List.not_mem_nil
  | cons place rest ih =>
    rw [outcome_sourcesAt_cons] at h
    obtain ⟨text, hplace, h⟩ := bind_eq_ok h
    obtain ⟨others, hrest, -⟩ := bind_eq_ok h
    exact List.forall_mem_cons.mpr ⟨⟨text, hplace⟩, ih hrest⟩

/-- The paths that a project is read from: those of the entries below its folder that are named as sources are, and
that of its remappings. -/
inductive IsRead (files : Files) (folder : Path) : Path → Prop where
  | source {d place : Location} (there : files.spot true folder = .ok ⟨d, some .folder⟩) (below : place ∈ files.below d)
      (named : Files.nameEndsWith sourceSuffix place = true) : IsRead files folder (folder.under place)
  | remappings : IsRead files folder (folder.child remappingsName)

/-- What a project is made of: its sources and its remappings. -/
def gathered (files : Files) (folder : Path) : Except Failure (Table SourceText × List Text) := do
  let sources ← (Project.sources files folder).outcome
  let remappings ← (Project.remappings files folder).outcome
  pure (sources, remappings)

theorem outcome_sources_of_folder {d : Location} (hfolder : files.spot true folder = .ok ⟨d, some .folder⟩) :
    (Project.sources files folder).outcome = (sourcesAt files folder
      (((files.below d).filter (Files.nameEndsWith sourceSuffix)).mergeSort Path.partsLe)).outcome := by
  rw [Project.sources, Files.findBelow_eq hfolder]
  rfl

/-- Sources are not gathered if it is not known whether there is a folder, or if a text is not had. -/
theorem sources_fail (h : (Project.sources files folder).outcome = .error failure) :
    (∃ fault, files.isFolder folder = .error fault ∧ failure = .unforeseen fault.defect) ∨
      ∃ path, IsRead files folder path ∧ fileText files path = .error failure := by
  cases hthere : files.isFolder folder with
  | error fault =>
    rw [Project.sources, Files.findBelow, hthere] at h
    exact .inl ⟨fault, rfl, (Except.error.inj h).symm⟩
  | ok there =>
    cases there with
    | false =>
      rw [Project.sources, Files.findBelow, hthere] at h
      cases h
    | true =>
      obtain ⟨d, hspot⟩ := Files.isFolder_iff.mp hthere
      rw [outcome_sources_of_folder hspot] at h
      obtain ⟨place, hplace, hfails⟩ := fileText_of_sourcesAt_fails h
      obtain ⟨hbelow, hnamed⟩ := List.mem_filter.mp (List.mem_mergeSort.mp hplace)
      exact .inr ⟨folder.under place, .source hspot hbelow hnamed, hfails⟩

/-- What is gathered fails as one of the texts does that it is made of. -/
theorem gathered_fails (h : gathered files folder = .error failure) :
    (∃ fault, files.isFolder folder = .error fault ∧ failure = .unforeseen fault.defect) ∨
      ∃ path, IsRead files folder path ∧ fileText files path = .error failure := by
  rcases bind_eq_error h with hsources | ⟨sources, -, h⟩
  · exact sources_fail hsources
  rcases bind_eq_error h with hremappings | ⟨remappings, -, h⟩
  · rw [outcome_remappings] at hremappings
    refine .inr ⟨_, .remappings, ?_⟩
    cases hread : fileText files (folder.child remappingsName) with
    | error failure' =>
      rw [hread] at hremappings
      exact congrArg Except.error (Except.error.inj hremappings)
    | ok text =>
      rw [hread] at hremappings
      exact nomatch hremappings
  · exact nomatch h

/-- Sources and remappings are gathered, or a file cannot be read, or nothing foresees what went wrong. -/
theorem gathered_failure (h : gathered files folder = .error failure) :
    (∃ defect, failure = .unforeseen defect) ∨ ∃ fault, failure = .sourceUnreadable fault := by
  rcases gathered_fails h with ⟨fault, -, hdefect⟩ | ⟨path, -, hfails⟩
  · exact .inl ⟨_, hdefect⟩
  rcases fileText_fails hfails with ⟨fault, -, hdefect⟩ | ⟨hfault, -⟩
  · exact .inl ⟨_, hdefect⟩
  · exact .inr hfault

/-- Nothing is gathered without all the texts that it is made of. -/
theorem fileText_of_gathered {all : Table SourceText × List Text} (h : gathered files folder = .ok all) {path : Path}
    (hpath : IsRead files folder path) : ∃ text, fileText files path = .ok text := by
  obtain ⟨sources, hsources, h⟩ := bind_eq_ok h
  obtain ⟨remappings, hremappings, -⟩ := bind_eq_ok h
  cases hpath with
  | @source d place there below named =>
    rw [outcome_sources_of_folder there] at hsources
    exact fileText_of_sourcesAt hsources place (List.mem_mergeSort.mpr (List.mem_filter.mpr ⟨below, named⟩))
  | remappings =>
    rw [outcome_remappings] at hremappings
    cases hread : fileText files (folder.child remappingsName) with
    | error failure =>
      rw [hread] at hremappings
      exact nomatch hremappings
    | ok text => exact ⟨text, rfl⟩

/-! ## Unreadable files -/

/-- **Only unreadable files** are reported as such. -/
theorem exists_unreadable {fault : ProjectFileFault} (h : gathered files folder = .error (.sourceUnreadable fault)) :
    ∃ path, IsRead files folder path ∧ Unreadable files path := by
  rcases gathered_fails h with ⟨fault', -, heq⟩ | ⟨path, hpath, hfails⟩
  · exact nomatch heq
  rcases fileText_fails hfails with ⟨fault', -, heq⟩ | ⟨-, hunreadable⟩
  · exact nomatch heq
  · exact ⟨path, hpath, hunreadable⟩

/-- What a project is read from can be asked: whether there is a folder, and which of the paths below it, and whether
that of the remappings, leads to a file. -/
structure Askable (files : Files) (folder : Path) : Prop where
  top : ∃ there, files.isFolder folder = .ok there
  below : ∀ d place, files.spot true folder = .ok ⟨d, some .folder⟩ → place ∈ files.below d →
    ∃ there, files.isFile (folder.under place) = .ok there
  remappings : ∃ there, files.isFile (folder.child remappingsName) = .ok there

theorem Askable.isFile (h : Askable files folder) (hpath : IsRead files folder path) :
    ∃ there, files.isFile path = .ok there := by
  cases hpath with
  | source there below named => exact h.below _ _ there below
  | remappings => exact h.remappings

/-- A project whose paths cannot all be asked: nothing foresees the fault of the path that is too long. -/
def Unasked (files : Files) (folder : Path) (failure : Failure) : Prop :=
  ¬ Askable files folder ∧ ∃ fault, failure = .unforeseen (.system fault) ∧ fault.cause = .nameTooLong

/-- **An unreadable file is reported**, or something that the project is read from cannot be asked. -/
theorem gathered_of_unreadable (hpath : IsRead files folder path) (hunreadable : Unreadable files path) :
    ∃ failure, gathered files folder = .error failure ∧
      ((∃ fault, failure = .sourceUnreadable fault) ∨ Unasked files folder failure) := by
  cases hgathered : gathered files folder with
  | ok all =>
    obtain ⟨text, htext⟩ := fileText_of_gathered hgathered hpath
    exact absurd htext (fileText_of_unreadable hunreadable text)
  | error failure =>
    refine ⟨failure, rfl, ?_⟩
    rcases gathered_fails hgathered with ⟨fault, hfault, rfl⟩ | ⟨path', hpath', hfails⟩
    · obtain ⟨fault, rfl, hcause⟩ := Files.tooLong_of_holds_fails hfault
      refine .inr ⟨fun haskable => ?_, fault, rfl, hcause⟩
      obtain ⟨there, hthere⟩ := haskable.top
      exact nomatch hfault.symm.trans hthere
    rcases fileText_fails hfails with ⟨fault, hfault, rfl⟩ | ⟨hreported, -⟩
    · obtain ⟨fault, rfl, hcause⟩ := Files.tooLong_of_holds_fails hfault
      refine .inr ⟨fun haskable => ?_, fault, rfl, hcause⟩
      obtain ⟨there, hthere⟩ := haskable.isFile hpath'
      exact nomatch hfault.symm.trans hthere
    · exact .inl hreported

end Project

end SolidityBuild
