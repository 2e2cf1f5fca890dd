import SolidityBuild.Proofs.Build.Courses
import SolidityBuild.Proofs.Build.WorkshopStores
import SolidityBuild.Proofs.Cache.Nested

/-!
A compilation with a store in a folder of its project, and the tree that it leaves. Nothing is lost but links that
stand where entries are written; if none is lost, the same compilation in that tree only reads the answer, and
builds the same bundle.
-/

set_option autoImplicit false

namespace SolidityBuild

namespace Workshop

open FolderStore

variable {folder : Path} {own : Text} {d : Location} {w w₁ w' : Workshop} {timeLimit : Nat} {k version : Text}
  {document report : Json}

theorem looks_folder (store : FolderStore) (timeLimit : Nat) : (backend (.folder store) timeLimit).Looks :=
  ⟨fun _ _ => rfl, fun _ _ => rfl⟩

/-- What an entry that is written leaves. -/
theorem write_folder_ok {store : FolderStore} {entry : Text}
    (hwrite : ((backend (.folder store) timeLimit).write entry document).result w = (w', .ok ())) :
    w'.bench = w.bench ∧ store.write w.files entry (.document document) = (w'.files, .ok ()) := by
  rw [result_write_folder] at hwrite
  obtain ⟨rfl, hok⟩ := Prod.ext_iff.mp hwrite
  exact ⟨rfl, Prod.ext rfl hok⟩

/-- An entry that is found is there at a path to a file. -/
theorem exists_spot_of_found {store : FolderStore} {entry : Text}
    (hfound : (backend (.folder store) timeLimit).Found w entry) :
    ∃ l node, w.files.spot true (store.path entry) = .ok ⟨l, some node⟩ ∧ node ≠ .folder :=
  exists_spot_of_has hfound

/-- It is found wherever its path leads there. -/
theorem found_congr {store : FolderStore} {entry : Text}
    (h : w'.files.spot true (store.path entry) = w.files.spot true (store.path entry))
    (hfound : (backend (.folder store) timeLimit).Found w entry) :
    (backend (.folder store) timeLimit).Found w' entry := (has_congr h).trans hfound

/-! ## Recording and answering -/

section Stages

variable (hfiles : w.files.WellFormed)

include hfiles

theorem recording_becomes {store : FolderStore} (hk : Cache.key document = .ok k)
    (h : (backend (.folder store) timeLimit).Recording k document w w') :
    w'.files.WellFormed ∧ Files.Becomes w.files w'.files ∧ w'.bench = w.bench := by
  cases h with
  | found there => exact ⟨hfiles, .refl _, rfl⟩
  | written missing write =>
    obtain ⟨hbench, hwrite⟩ := write_folder_ok write
    obtain ⟨hfiles', hbecomes⟩ := becomes_of_write hfiles (Cache.IsEntry.input hk).name hwrite
    exact ⟨hfiles', hbecomes, hbench⟩

theorem answering_becomes {store : FolderStore} (hk : Cache.key document = .ok k)
    (h : (backend (.folder store) timeLimit).Answering k version report w w') :
    w'.files.WellFormed ∧ Files.Becomes w.files w'.files := by
  cases h with
  | held there read => exact ⟨hfiles, .refl _⟩
  | asked missing recorded invoke write =>
    rw [result_invoke] at invoke
    obtain ⟨rfl, -⟩ := Prod.ext_iff.mp invoke
    obtain ⟨-, hwrite⟩ := write_folder_ok write
    exact becomes_of_write hfiles (Cache.IsEntry.output hk).name hwrite

variable (hfolder : w.files.spot true folder = .ok ⟨d, some .folder⟩) (hown : Files.IsName own)

include hfolder hown

/-- A document that is recorded is found, if no link is lost. -/
theorem recording_within (hk : Cache.key document = .ok k)
    (h : (backend (.folder (within folder own)) timeLimit).Recording k document w w') :
    Files.Furnished (Fresh own) w.files w'.files ∧ (Files.LinksStand w.files w'.files →
      (backend (.folder (within folder own)) timeLimit).Found w' (Cache.inputEntry k)) := by
  cases h with
  | found there => exact ⟨.refl _ _, fun _ => there⟩
  | written missing write =>
    have hname := (Cache.IsEntry.input hk).name
    obtain ⟨-, hwrite⟩ := write_folder_ok write
    refine ⟨within_write_furnished hfiles hfolder hown hname hwrite, fun hstand => ?_⟩
    obtain ⟨l, hspot⟩ := within_write_own hfiles hfolder hown hname hwrite hstand
    exact has_of_spot (nameFault?_of_scalar _ (Cache.IsEntry.input hk).scalar) hspot

/-- An answer that is given is found and read, and a document that is found stays so, if no link is lost. -/
theorem answering_within (hbench : w.bench.PrintsScalar) (hk : Cache.key document = .ok k)
    (h : (backend (.folder (within folder own)) timeLimit).Answering k version report w w') :
    Files.Furnished (Fresh own) w.files w'.files ∧ (Files.LinksStand w.files w'.files →
      (backend (.folder (within folder own)) timeLimit).Found w' (Cache.outputEntry k) ∧
      (backend (.folder (within folder own)) timeLimit).reading w' (Cache.outputEntry k) = .ok report ∧
      ((backend (.folder (within folder own)) timeLimit).Found w (Cache.inputEntry k) →
        (backend (.folder (within folder own)) timeLimit).Found w' (Cache.inputEntry k))) := by
  cases h with
  | held there read => exact ⟨.refl _ _, fun _ => ⟨there, read, fun hfound => hfound⟩⟩
  | asked missing recorded invoke write =>
    have hname := (Cache.IsEntry.output hk).name
    obtain ⟨answer, rfl⟩ := exists_answer hbench invoke
    rw [result_invoke] at invoke
    obtain ⟨rfl, -⟩ := Prod.ext_iff.mp invoke
    obtain ⟨-, hwrite⟩ := write_folder_ok write
    refine ⟨within_write_furnished hfiles hfolder hown hname hwrite, fun hstand => ?_⟩
    obtain ⟨l, hspot⟩ := within_write_own hfiles hfolder hown hname hwrite hstand
    obtain ⟨hfound, hread⟩ := read_of_spot (nameFault?_of_scalar _ (Cache.IsEntry.output hk).scalar)
      answer.wellFormed hspot
    refine ⟨hfound, hread, fun hrecorded => ?_⟩
    obtain ⟨l', node, hspot', hfile⟩ := exists_spot_of_found hrecorded
    have hstill := within_write_other hfiles hfolder hown hname hwrite hstand missing hspot' hfile
    exact found_congr (w := w) (hstill.trans hspot'.symm) hrecorded

/-- **A compilation that is repeated** in the tree that it left only reads the answer, if no link was lost. -/
theorem compile_within (hbench : w.bench.PrintsScalar) {r : CompileRequest} {selection : Selection}
    {post : Postprocessing} {bundle : Bundle} (hresult : (r.compile version selection post).result
      (backend (.folder (within folder own)) timeLimit) w = (w', .ok bundle))
    (hstand : Files.LinksStand w.files w'.files) :
    w'.files.WellFormed ∧ Files.Furnished (Fresh own) w.files w'.files ∧ ∀ later : Workshop,
      later.files = w'.files → (r.compile version selection post).result
        (backend (.folder (within folder own)) timeLimit) later = (later, .ok bundle) := by
  have hlooks := looks_folder (within folder own) timeLimit
  obtain ⟨k, w₁, report, hk, hrecording, hanswering, hbundle⟩ := hlooks.compile_ok hresult
  obtain ⟨hfiles₁, hbecomes₁, hbench₁⟩ := recording_becomes hfiles hk hrecording
  obtain ⟨hfiles', hbecomes'⟩ := answering_becomes hfiles₁ hk hanswering
  obtain ⟨hfurnished₁, hrecorded⟩ := recording_within hfiles hfolder hown hk hrecording
  -- no stage makes a link, so one that stands in the end has stood all the time
  have hstand₁ := hstand.before hbecomes'
  have hfolder₁ := (hbecomes₁.keeps hstand₁).spot_folder hfolder
  rw [← hbench₁] at hbench
  obtain ⟨hfurnished', hanswered⟩ := answering_within hfiles₁ hfolder₁ hown hbench hk hanswering
  obtain ⟨hfound, hread, hstill⟩ := hanswered (hstand.after hbecomes₁)
  refine ⟨hfiles', hfurnished₁.trans hfurnished', fun later hlater => ?_⟩
  have hsame : ∀ entry, later.files.spot true ((within folder own).path entry) =
      w'.files.spot true ((within folder own).path entry) := fun entry => by rw [hlater]
  rw [← hbundle]
  exact CompileRequest.result_compile_of_held hlooks (found_congr (hsame _) (hstill (hrecorded hstand₁)))
    (found_congr (hsame _) hfound) ((read_congr (hsame _)).trans hread) hk _ version selection post

end Stages

end Workshop

end SolidityBuild
