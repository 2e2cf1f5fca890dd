import SolidityBuild.Proofs.Project.Sources
import SolidityBuild.Proofs.Text.Pieces
import SolidityBuild.Proofs.Text.Utf8

/-!
What the sources of a project are. Each is at a place of its own below the folder, so no two have the same path;
and each is the text of a file, which is not empty and, having been decoded, has no surrogates.
-/

set_option autoImplicit false

namespace SolidityBuild

/-! ## Places -/

namespace Files

variable {files : Files} {p : Path} {tail : Text} {places : List Location}

theorem outcome_foresee_eq_ok_iff {α : Type} {x : Except FileFault α} {a : α} :
    (foresee x).outcome = .ok a ↔ x = .ok a := by
  cases x with
  | error fault => constructor <;> (intro h; cases h)
  | ok b => constructor <;> (intro h; cases h; rfl)

/-- What is found is found at places below one location, if anything is. -/
theorem exists_below_of_findBelow (h : files.findBelow p tail = .ok places) :
    places = [] ∨ ∃ d, places = ((files.below d).filter (nameEndsWith tail)).mergeSort Path.partsLe := by
  rw [findBelow] at h
  obtain ⟨there, -, h⟩ := bind_eq_ok h
  cases there with
  | false =>
    cases h
    exact .inl rfl
  | true =>
    obtain ⟨spot, -, h⟩ := bind_eq_ok h
    cases h
    exact .inr ⟨spot.location, rfl⟩

/-- A place is read back from its path, as no name in it holds a separator. -/
theorem splitOn_join_of_below (hnames : files.Separated) {d place : Location} (hbelow : place ∈ files.below d) :
    Text.splitOn Path.separator (Text.join [Path.separator] place) = place := by
  obtain ⟨hne, hnode⟩ := mem_below_iff.mp hbelow
  obtain ⟨e, he, heq⟩ := List.mem_map.mp
    ((node?_ne_none_iff (List.append_ne_nil_of_right_ne_nil d hne)).mp hnode)
  refine Text.splitOn_join hne fun name hname => ?_
  exact hnames e he name (heq ▸ List.mem_append_right d hname)

/-- No two places that are found are written as one path. -/
theorem nodup_paths_of_findBelow (hfiles : files.WellFormed) (hnames : files.Separated)
    (h : files.findBelow p tail = .ok places) : (places.map (Text.join [Path.separator])).Nodup := by
  rcases exists_below_of_findBelow h with rfl | ⟨d, rfl⟩
  · exact List.nodup_nil
  · have hplaces : (((files.below d).filter (nameEndsWith tail)).mergeSort Path.partsLe).Nodup :=
      (List.mergeSort_perm _ _).nodup_iff.mpr ((hfiles.nodup_below d).filter _)
    have hback : ∀ place ∈ ((files.below d).filter (nameEndsWith tail)).mergeSort Path.partsLe,
        Text.splitOn Path.separator (Text.join [Path.separator] place) = place :=
      fun place hplace => splitOn_join_of_below hnames (List.mem_filter.mp (List.mem_mergeSort.mp hplace)).1
    refine List.Nodup.map_on (fun place hplace place' hplace' heq => ?_) hplaces
    rw [← hback place hplace, heq, hback place' hplace']

/-- The text of a file has no surrogates. -/
theorem scalar_of_readText {t : Text} (h : files.readText p = .ok t) : t.Scalar := by
  rw [readText] at h
  cases hoctets : files.readOctets p with
  | error fault =>
    rw [hoctets] at h
    cases h
  | ok octets =>
    rw [hoctets] at h
    dsimp only at h
    cases hdecode : Text.decodeUtf8 octets with
    | error fault =>
      rw [hdecode] at h
      cases h
    | ok text =>
      rw [hdecode] at h
      cases h
      exact Text.scalar_unifyNewlines (Text.scalar_of_decodeUtf8 hdecode)

end Files

namespace Project

variable {files : Files} {folder : Path} {places : List Location} {sources : Table SourceText}

/-! ## Texts -/

/-- The text of a file of a project has no surrogates. -/
theorem scalar_of_readText {p : Path} {t : Text} (h : readText files p = .ok t) : t.Scalar := by
  rw [readText] at h
  split at h
  · next text hread =>
    cases h
    exact Files.scalar_of_readText hread
  all_goals cases h

/-- What stands at a place is left out, or it is a text and the first of the sources. -/
theorem sourcesAt_cases {place : Location} {rest : List Location}
    (h : (sourcesAt files folder (place :: rest)).outcome = .ok sources) :
    ∃ others, (sourcesAt files folder rest).outcome = .ok others ∧
      (sources = others ∨ ∃ content, readText files (folder.under place) = .ok content ∧ content ≠ [] ∧
        sources = (Text.join [Path.separator] place, ⟨content, []⟩) :: others) := by
  rw [outcome_sourcesAt_cons] at h
  obtain ⟨text, htext, h⟩ := bind_eq_ok h
  obtain ⟨others, hothers, h⟩ := bind_eq_ok h
  refine ⟨others, hothers, ?_⟩
  rcases text with _ | (_ | ⟨c, content⟩)
  · exact .inl (Except.ok.inj h).symm
  · exact .inl (Except.ok.inj h).symm
  · exact .inr ⟨_, readText_of_fileText htext, List.cons_ne_nil _ _, (Except.ok.inj h).symm⟩

/-- A source as it is collected: a text that is not empty and has no surrogates, and nothing else. -/
structure IsCollected (s : SourceText) : Prop where
  content_ne_nil : s.content ≠ []
  scalar : s.content.Scalar
  bare : s.extras = []

/-- The induction is on the places: each is left out or put in front. -/
theorem collected_of_sourcesAt (h : (sourcesAt files folder places).outcome = .ok sources) :
    sources.keys.Sublist (places.map (Text.join [Path.separator])) ∧ ∀ e ∈ sources, IsCollected e.2 := by
  induction places generalizing sources with
  | nil =>
    cases h
    exact ⟨.slnil, fun e he => absurd he List.not_mem_nil⟩
  | cons place rest ih =>
    obtain ⟨others, hothers, hsources⟩ := sourcesAt_cases h
    obtain ⟨hkeys, hcollected⟩ := ih hothers
    rcases hsources with rfl | ⟨content, hread, hne, rfl⟩
    · exact ⟨hkeys.cons _, hcollected⟩
    · exact ⟨hkeys.cons_cons _, List.forall_mem_cons.mpr ⟨⟨hne, scalar_of_readText hread, rfl⟩, hcollected⟩⟩

/-- **The sources of a project** are under distinct paths, and each of them is a text as it is collected. -/
theorem collected_of_sources (hfiles : files.WellFormed) (hnames : files.Separated)
    (h : (Project.sources files folder).outcome = .ok sources) :
    sources.keys.Nodup ∧ ∀ e ∈ sources, IsCollected e.2 := by
  rw [Project.sources, Narrated.outcome_bind] at h
  obtain ⟨places, hplaces, h⟩ := bind_eq_ok h
  have hfound := Files.outcome_foresee_eq_ok_iff.mp hplaces
  obtain ⟨hkeys, hcollected⟩ := collected_of_sourcesAt h
  exact ⟨hkeys.nodup (Files.nodup_paths_of_findBelow hfiles hnames hfound), hcollected⟩

end Project

end SolidityBuild
