import SolidityBuild.Proofs.Project.Unreadable

/-!
Which kind of project is detected. It is told by the names in the folder and by nothing else: neither what is below
the folders in it nor the order in which it is listed makes a difference.

A name marks a kind if it *ends* with a marker of it, whatever stands before that. So the kind is that of the marker
files, each under its own name, unless there is an entry whose name only ends like one.
-/

set_option autoImplicit false

namespace SolidityBuild

namespace Project

variable {files files' : Files} {folder : Path} {d d' : Location} {markers names names' : List Text} {name : Text}
  {kind kind' : ProjectKind}

/-! ## Names that mark a kind -/

/-- A name that ends with one of the markers; a line feed at its very end does not count. -/
def EndsMarked (markers : List Text) (name : Text) : Prop :=
  ∃ marker ∈ markers, marker <:+ name ∨ ∃ bare, name = bare ++ [10] ∧ marker <:+ bare

theorem endsMarked_of_mem (h : name ∈ markers) : EndsMarked markers name := ⟨name, h, .inl (List.suffix_refl name)⟩

theorem EndsMarked.append_left (h : EndsMarked markers name) (others : List Text) :
    EndsMarked (markers ++ others) name := by
  obtain ⟨marker, hmarker, hends⟩ := h
  exact ⟨marker, List.mem_append_left others hmarker, hends⟩

theorem EndsMarked.append_right (h : EndsMarked markers name) (others : List Text) :
    EndsMarked (others ++ markers) name := by
  obtain ⟨marker, hmarker, hends⟩ := h
  exact ⟨marker, List.mem_append_right others hmarker, hends⟩

theorem isMarked_iff : isMarked markers name = true ↔ EndsMarked markers name := by
  -- what is left without a final line feed is the name itself where there is none
  have hbare : ∀ marker : Text, marker <:+ (if name.getLast? = some 10 then name.dropLast else name) ↔
      (name.getLast? ≠ some 10 ∧ marker <:+ name) ∨ ∃ bare, name = bare ++ [10] ∧ marker <:+ bare := by
    intro marker
    split
    · next hlast =>
      obtain ⟨bare, rfl⟩ := List.getLast?_eq_some_iff.mp hlast
      simp
    · next hlast =>
      have hno : ¬ ∃ bare, name = bare ++ [10] ∧ marker <:+ bare := by
        rintro ⟨bare, rfl, -⟩
        exact hlast List.getLast?_concat
      simp [hlast, hno]
  rw [isMarked]
  simp only [List.any_eq_true, Bool.or_eq_true, Text.endsWith, List.isSuffixOf_iff_suffix]
  constructor
  · rintro ⟨marker, hmarker, hends | hends⟩
    · exact ⟨marker, hmarker, .inl hends⟩
    · rcases (hbare marker).mp hends with ⟨-, hends⟩ | hends
      · exact ⟨marker, hmarker, .inl hends⟩
      · exact ⟨marker, hmarker, .inr hends⟩
  · rintro ⟨marker, hmarker, hends | hends⟩
    · exact ⟨marker, hmarker, .inl hends⟩
    · exact ⟨marker, hmarker, .inr ((hbare marker).mpr (.inr hends))⟩

/-- No marker of one kind marks the other one. -/
theorem not_endsMarked_forge (h : name ∈ hardhatMarkers) : ¬ EndsMarked forgeMarkers name := by
  have hall : ∀ name ∈ hardhatMarkers, isMarked forgeMarkers name = false := by decide
  rw [← isMarked_iff, hall name h]
  exact Bool.false_ne_true

theorem not_endsMarked_hardhat (h : name ∈ forgeMarkers) : ¬ EndsMarked hardhatMarkers name := by
  have hall : ∀ name ∈ forgeMarkers, isMarked hardhatMarkers name = false := by decide
  rw [← isMarked_iff, hall name h]
  exact Bool.false_ne_true

/-! ## The kind that names tell -/

/-- The kind of a project in which these names are, where `marks` says which names mark a kind: the first framework
wins over the second one, and without any marked name it is a plain folder. -/
inductive Marked (marks : List Text → Text → Prop) (present : Text → Prop) : ProjectKind → Prop where
  | forge {name : Text} (there : present name) (marked : marks forgeMarkers name) : Marked marks present .forge
  | hardhat {name : Text} (unforged : ∀ name, present name → ¬ marks forgeMarkers name) (there : present name)
      (marked : marks hardhatMarkers name) : Marked marks present .hardhat
  | folder (unforged : ∀ name, present name → ¬ marks forgeMarkers name)
      (unmarked : ∀ name, present name → ¬ marks hardhatMarkers name) : Marked marks present .folder

theorem Marked.unique {marks : List Text → Text → Prop} {present : Text → Prop} (h : Marked marks present kind)
    (h' : Marked marks present kind') : kind = kind' := by
  cases h with
  | forge there marked =>
    cases h' with
    | forge => rfl
    | hardhat unforged | folder unforged => exact absurd marked (unforged _ there)
  | hardhat unforged there marked =>
    cases h' with
    | forge there' marked' => exact absurd marked' (unforged _ there')
    | hardhat => rfl
    | folder _ unmarked => exact absurd marked (unmarked _ there)
  | folder unforged unmarked =>
    cases h' with
    | forge there' marked' => exact absurd marked' (unforged _ there')
    | hardhat _ there' marked' => exact absurd marked' (unmarked _ there')
    | folder => rfl

/-- Only what the names that are there mark makes a difference. -/
theorem Marked.congr {marks marks' : List Text → Text → Prop} {present : Text → Prop}
    (h : Marked marks present kind)
    (hforge : ∀ name, present name → (marks' forgeMarkers name ↔ marks forgeMarkers name))
    (hhardhat : ∀ name, present name → (marks' hardhatMarkers name ↔ marks hardhatMarkers name)) :
    Marked marks' present kind := by
  cases h with
  | forge there marked => exact .forge there ((hforge _ there).mpr marked)
  | hardhat unforged there marked =>
    refine .hardhat (fun name hname hmarked => ?_) there ((hhardhat _ there).mpr marked)
    exact unforged name hname ((hforge name hname).mp hmarked)
  | folder unforged unmarked =>
    refine .folder (fun name hname hmarked => ?_) fun name hname hmarked => ?_
    · exact unforged name hname ((hforge name hname).mp hmarked)
    · exact unmarked name hname ((hhardhat name hname).mp hmarked)

theorem any_isMarked_iff : names.any (isMarked markers) = true ↔ ∃ name ∈ names, EndsMarked markers name := by
  simp only [List.any_eq_true, isMarked_iff]

theorem marked_kindOfNames (names : List Text) :
    Marked EndsMarked (· ∈ names) ((kindOfNames? names).getD .folder) := by
  rw [kindOfNames?]
  split_ifs with hforge hhardhat
  · obtain ⟨name, hname, hmarked⟩ := any_isMarked_iff.mp hforge
    exact .forge hname hmarked
  · obtain ⟨name, hname, hmarked⟩ := any_isMarked_iff.mp hhardhat
    exact .hardhat (fun name' hname' h => hforge (any_isMarked_iff.mpr ⟨name', hname', h⟩)) hname hmarked
  · exact .folder (fun name' hname' h => hforge (any_isMarked_iff.mpr ⟨name', hname', h⟩))
      fun name' hname' h => hhardhat (any_isMarked_iff.mpr ⟨name', hname', h⟩)

theorem kindOfNames?_congr (h : ∀ name, name ∈ names' ↔ name ∈ names) : kindOfNames? names' = kindOfNames? names := by
  have hany : ∀ markers, names'.any (isMarked markers) = names.any (isMarked markers) := by
    intro markers
    rw [Bool.eq_iff_iff, any_isMarked_iff, any_isMarked_iff]
    simp only [h]
  rw [kindOfNames?, kindOfNames?, hany, hany]

/-! ## The kind that is detected -/

/-- What is told and found, given the names in the folder. -/
def ofNames (folder : Path) (names : List Text) : Narrated ProjectKind :=
  match kindOfNames? names with
  | some kind => pure kind
  | none => do
    .tell [⟨.warning, "unknown_project_layout",
      [("task_dir", .text folder.text), ("fallback", .text ProjectKind.folder.name)]⟩]
    pure .folder

theorem outcome_ofNames (folder : Path) (names : List Text) :
    (ofNames folder names).outcome = .ok ((kindOfNames? names).getD .folder) := by
  rw [ofNames]
  cases kindOfNames? names <;> rfl

theorem detect_of_folder (hfolder : files.spot true folder = .ok ⟨d, some .folder⟩) :
    detect files folder = ofNames folder (files.names d) := by
  have hisFolder : files.isFolder folder = .ok true := Files.isFolder_iff.mpr ⟨d, hfolder⟩
  have hnames : files.readFolder folder = .ok (files.names d) := by
    rw [Files.readFolder, hfolder]
    rfl
  have hread : detect files folder = (do
      let names ← Files.foresee (files.readFolder folder)
      ofNames folder names) := by
    rw [detect, hisFolder]
    rfl
  rw [hread, hnames]
  rfl

theorem detect_of_no_folder (hfolder : files.isFolder folder = .ok false) :
    detect files folder = ofNames folder [] := by
  rw [detect, hfolder]
  rfl

/-- **The kind of a project is told by how the names in its folder end**: where there is no folder it is a plain one,
and only a path that is too long to be asked whether it leads to a folder is a fault. If every name that ends with a
marker is that marker, the kind is told by the marker files. Nothing but the names in the folder makes a
difference. -/
theorem detect_by_ends_of_names (files : Files) (folder : Path) :
    (∀ fault, files.isFolder folder = .error fault → ∃ f : SystemFault, f.cause = .nameTooLong ∧
      (detect files folder).outcome = .error (.unforeseen (.system f))) ∧
    (files.isFolder folder = .ok false → (detect files folder).outcome = .ok .folder) ∧
    ∀ d, files.spot true folder = .ok ⟨d, some .folder⟩ →
      (∃ kind, (detect files folder).outcome = .ok kind) ∧
      (∀ kind, (detect files folder).outcome = .ok kind ↔
        Marked EndsMarked (fun name => files.node? (d ++ [name]) ≠ none) kind) ∧
      ((∀ name, files.node? (d ++ [name]) ≠ none → EndsMarked (forgeMarkers ++ hardhatMarkers) name →
          name ∈ forgeMarkers ++ hardhatMarkers) →
        ∀ kind, (detect files folder).outcome = .ok kind ↔
          Marked (fun markers name => name ∈ markers) (fun name => files.node? (d ++ [name]) ≠ none) kind) ∧
      ∀ files' d', files'.spot true folder = .ok ⟨d', some .folder⟩ →
        (∀ name, files'.node? (d' ++ [name]) ≠ none ↔ files.node? (d ++ [name]) ≠ none) →
        detect files' folder = detect files folder := by
  refine ⟨fun fault hfault => ?_, fun hfolder => ?_, fun d hfolder => ?_⟩
  · obtain ⟨f, rfl, hcause⟩ := Files.tooLong_of_holds_fails hfault
    refine ⟨f, hcause, ?_⟩
    rw [detect, hfault]
    rfl
  · rw [detect_of_no_folder hfolder]
    rfl
  have hdetect := detect_of_folder hfolder
  have hmarked : Marked EndsMarked (fun name => files.node? (d ++ [name]) ≠ none)
      ((kindOfNames? (files.names d)).getD .folder) := by
    have h := marked_kindOfNames (files.names d)
    simp only [Files.mem_names_iff] at h
    exact h
  have houtcome : (detect files folder).outcome = .ok ((kindOfNames? (files.names d)).getD .folder) := by
    rw [hdetect, outcome_ofNames]
  have hiff : ∀ kind, (detect files folder).outcome = .ok kind ↔
      Marked EndsMarked (fun name => files.node? (d ++ [name]) ≠ none) kind := by
    intro kind
    rw [houtcome]
    constructor
    · intro h
      rwa [← Except.ok.inj h]
    · exact fun h => congrArg Except.ok (hmarked.unique h)
  refine ⟨⟨_, houtcome⟩, hiff, fun hexact kind => ?_, fun files' d' hfolder' hsame => ?_⟩
  · -- an entry that ends with a marker is one, and then one of the same kind
    have hforge : ∀ name, files.node? (d ++ [name]) ≠ none →
        (name ∈ forgeMarkers ↔ EndsMarked forgeMarkers name) := by
      refine fun name hname => ⟨endsMarked_of_mem, fun hends => ?_⟩
      rcases List.mem_append.mp (hexact name hname (hends.append_left _)) with hforge | hhardhat
      · exact hforge
      · exact absurd hends (not_endsMarked_forge hhardhat)
    have hhardhat : ∀ name, files.node? (d ++ [name]) ≠ none →
        (name ∈ hardhatMarkers ↔ EndsMarked hardhatMarkers name) := by
      refine fun name hname => ⟨endsMarked_of_mem, fun hends => ?_⟩
      rcases List.mem_append.mp (hexact name hname (hends.append_right _)) with hforge | hhardhat
      · exact absurd hends (not_endsMarked_hardhat hforge)
      · exact hhardhat
    rw [hiff]
    constructor
    · exact fun h => h.congr hforge hhardhat
    · exact fun h => h.congr (fun name hname => (hforge name hname).symm) fun name hname => (hhardhat name hname).symm
  · have hnames : ∀ name, name ∈ files'.names d' ↔ name ∈ files.names d := by
      intro name
      rw [Files.mem_names_iff, Files.mem_names_iff, hsame]
    rw [hdetect, detect_of_folder hfolder', ofNames, ofNames, kindOfNames?_congr hnames]

/-- A folder with one entry, whose name only ends like a marker. -/
def lookalikeTree : Files := { entries := [([Text.ofString "myforge.toml"], .file [])] }

/-- The entry marks the project, though it is none of the marker files. -/
theorem lookalike_detected : lookalikeTree.WellFormed ∧
    lookalikeTree.spot true ⟨1, []⟩ = .ok ⟨[], some .folder⟩ ∧
    (∀ name, lookalikeTree.node? ([] ++ [name]) ≠ none → name ∉ forgeMarkers ++ hardhatMarkers) ∧
    (detect lookalikeTree ⟨1, []⟩).outcome = .ok .forge := by
  have hfiles : lookalikeTree.WellFormed :=
    Files.WellFormed.empty.put (l := ["myforge.toml"]) (by decide) rfl (by decide) (by decide) _
  refine ⟨hfiles, by decide, fun name hname => ?_, rfl⟩
  have hlisted : lookalikeTree.names [] = [Text.ofString "myforge.toml"] := rfl
  have hmem := Files.mem_names_iff.mpr hname
  rw [hlisted, List.mem_singleton] at hmem
  rw [hmem]
  decide

end Project

end SolidityBuild
