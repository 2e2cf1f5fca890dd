import SolidityBuild.Project.Sources
import SolidityBuild.Proofs.Files.Lasting
import SolidityBuild.Proofs.Narrated

/-!
What a project is made of. Sources and remappings are got from the texts of files, each if there is a file: this is
what `outcome_sourcesAt_cons` and `outcome_remappings` say, whatever is told on the way.

They are read through the paths of the project only. So they are the same in a tree and in one that it has become, and
the same is told about them, if these paths lead to the same.
-/

set_option autoImplicit false

namespace SolidityBuild

namespace Project

variable {fresh : Text → Prop} {files files' : Files} {folder : Path}

/-! ## The texts it is made of -/

/-- The text of the file at a path, if there is a file. -/
def fileText (files : Files) (path : Path) : Except Failure (Option Text) :=
  match files.isFile path with
  | .error fault => .error (.unforeseen fault.defect)
  | .ok false => .ok none
  | .ok true => (readText files path).map some

theorem readText_of_fileText {p : Path} {text : Text} (h : fileText files p = .ok (some text)) :
    readText files p = .ok text := by
  rw [fileText] at h
  rcases hfile : files.isFile p with fault | (_ | _)
  · rw [hfile] at h
    cases h
  · rw [hfile] at h
    cases h
  · rw [hfile] at h
    cases hread : readText files p with
    | error failure =>
      rw [hread] at h
      cases h
    | ok text' =>
      rw [hread] at h
      cases h
      rfl

/-- **The sources at the given places** are the texts of the files there, but for those without any text. -/
theorem outcome_sourcesAt_cons (files : Files) (folder : Path) (place : Location) (rest : List Location) :
    (sourcesAt files folder (place :: rest)).outcome = (do
      let text ← fileText files (folder.under place)
      let others ← (sourcesAt files folder rest).outcome
      pure (match text with
        | some (c :: content) => (Text.join [Path.separator] place, ⟨c :: content, []⟩) :: others
        | _ => others)) := by
  have hskipped : ∀ x : Narrated (Table SourceText), x.outcome = x.outcome >>= fun others => pure others :=
    fun x => by cases x.outcome <;> rfl
  rw [sourcesAt, fileText, Path.under, Narrated.outcome_bind]
  rcases files.isFile ⟨folder.slashes, folder.parts ++ place⟩ with fault | (_ | _)
  · rfl
  · exact hskipped _
  · rcases readText files ⟨folder.slashes, folder.parts ++ place⟩ with failure | (_ | ⟨c, content⟩)
    · rfl
    · exact hskipped _
    · change ((sourcesAt files folder rest) >>= fun sources => _).outcome = _
      rw [Narrated.outcome_bind]
      rfl

/-- The remappings are read from the text of their file, if there is one. -/
theorem outcome_remappings (files : Files) (folder : Path) : (remappings files folder).outcome =
    (fileText files (folder.child remappingsName)).map fun text => (text.map remappingsOfText).getD [] := by
  rw [remappings, fileText, Narrated.outcome_bind]
  rcases files.isFile (folder.child remappingsName) with fault | (_ | _)
  · rfl
  · rfl
  · cases readText files (folder.child remappingsName) <;> rfl

/-- A file with a text is a source. -/
theorem sourcesAt_of_text {place : Location} {rest : List Location} {c : CodePoint} {text : Text}
    {sources : Table SourceText} (hfile : files.isFile (folder.under place) = .ok true)
    (hread : files.readText (folder.under place) = .ok (c :: text))
    (hrest : (sourcesAt files folder rest).outcome = .ok sources) :
    (sourcesAt files folder (place :: rest)).outcome =
      .ok ((Text.join [Path.separator] place, ⟨c :: text, []⟩) :: sources) := by
  rw [outcome_sourcesAt_cons, fileText, hfile, readText, hread, hrest]
  rfl

/-- What is no file is no source. -/
theorem sourcesAt_of_no_file {place : Location} {rest : List Location}
    (hfile : files.isFile (folder.under place) = .ok false) :
    (sourcesAt files folder (place :: rest)).outcome = (sourcesAt files folder rest).outcome := by
  rw [outcome_sourcesAt_cons, fileText, hfile]
  cases (sourcesAt files folder rest).outcome <;> rfl

/-- What the sources of a project are read from, if it is known what is found. -/
theorem sources_of_places {d : Location} (hfolder : files.spot true folder = .ok ⟨d, some .folder⟩)
    (places : List Location) (hfound : (files.below d).filter (Files.nameEndsWith sourceSuffix) = places)
    (hsorted : places.Pairwise fun s t => Path.partsLe s t = true) :
    sources files folder = sourcesAt files folder places := by
  rw [sources, Files.findBelow_eq hfolder, hfound, List.mergeSort_of_pairwise hsorted]
  rfl

/-! ## A tree and what it has become -/

theorem readText_congr {p : Path} (h : files'.spot true p = files.spot true p) :
    readText files' p = readText files p := by
  rw [readText, readText, Files.readText_congr h]

/-- The induction is on the places, each of which leads to the same. -/
theorem sourcesAt_congr {places : List Location}
    (h : ∀ place ∈ places, files'.spot true (folder.under place) = files.spot true (folder.under place)) :
    sourcesAt files' folder places = sourcesAt files folder places := by
  induction places with
  | nil => rfl
  | cons place rest ih =>
    obtain ⟨hplace, hrest⟩ := List.forall_mem_cons.mp h
    rw [Path.under] at hplace
    rw [sourcesAt, sourcesAt, Files.isFile, Files.isFile]
    rw [Files.holds_congr hplace, readText_congr hplace, ih hrest]

section Lasting

variable {d : Location} (hkept : Files.LinksKept files files' folder) (h : files.WellFormed)
  (h' : files'.WellFormed) (hfurnished : Files.Furnished fresh files files')
  (hfolder : files.spot true folder = .ok ⟨d, some .folder⟩)

include hkept h h' hfurnished hfolder

/-- **The sources of a project are the same**, if nothing was put under names of sources. -/
theorem sources_congr (hquiet : ∀ name, Text.endsWith name sourceSuffix = true → ¬ fresh name) :
    sources files' folder = sources files folder := by
  obtain ⟨places, hfound, hfound', hplaces⟩ := hkept.findBelow_congr h h' hfurnished hfolder hquiet
  rw [sources, sources, hfound, hfound']
  exact sourcesAt_congr hplaces

/-- The remappings of a project are the same, if nothing was put under the name of their file. -/
theorem remappings_congr (hquiet : ¬ fresh remappingsName) :
    remappings files' folder = remappings files folder := by
  have hname : Files.IsName remappingsName := by decide
  have hspot := hkept.spot_child h h' hfurnished hfolder hname hquiet
  rw [remappings, remappings, Files.isFile, Files.isFile]
  rw [Files.holds_congr hspot, readText_congr hspot]

end Lasting

end Project

end SolidityBuild
