import SolidityBuild.Proofs.Build.Step
import SolidityBuild.Proofs.Cache.Reading
import SolidityBuild.Proofs.CommandLine.Building

/-!
What becomes of an entry that cannot be read. Whatever is computed by requests ends where it comes to read such an
entry, with the failure of the reading: so does a compilation, and so does the build of a project of any kind. The
command then ends with code one, if the failure is foreseen; otherwise it ends without a code.
-/

set_option autoImplicit false

namespace SolidityBuild

/-! ## Computations that come to read an entry -/

namespace Program

variable {σ α : Type} {backend : Backend σ} {x y : Program α} {s s' s'' : σ} {entry : Text} {failure : Failure}

theorem step_has {answer : Bool} (h : (backend.has entry).result s = (s', .ok answer)) (next : Bool → Program α) :
    (has entry next).step backend s = some (s', next answer) := by
  rw [step, h]
  rfl

/-- Run from a state, a computation comes to read an entry in another one. -/
def ComesToRead (backend : Backend σ) (x : Program α) (s : σ) (entry : Text) (s' : σ) : Prop :=
  ∃ next, Steps backend (s, x) (s', read entry next)

theorem ComesToRead.of_step (hstep : x.step backend s = some (s', y)) (h : y.ComesToRead backend s' entry s'') :
    x.ComesToRead backend s entry s'' := by
  obtain ⟨next, hsteps⟩ := h
  exact ⟨next, .head hstep hsteps⟩

/-- **A computation ends with the failure of its reading.** -/
theorem ComesToRead.result_error (h : x.ComesToRead backend s entry s')
    (hread : (backend.read entry).result s' = (s'', .error failure)) : x.result backend s = (s'', .error failure) := by
  obtain ⟨next, hsteps⟩ := h
  rw [result_of_steps hsteps, result_read, hread]
  rfl

end Program

namespace Workshop

variable {w w' : Workshop} {store : FolderStore} {entry : Text} {timeLimit : Nat} {failure : Failure} {α : Type}

theorem result_read_folder (store : FolderStore) (timeLimit : Nat) (entry : Text) (w : Workshop) :
    ((backend (.folder store) timeLimit).read entry).result w = (w, store.read w.files entry) := rfl

theorem result_of_comesToRead {x : Program α} (h : x.ComesToRead (backend (.folder store) timeLimit) w entry w')
    (hread : store.read w'.files entry = .error failure) :
    x.result (backend (.folder store) timeLimit) w = (w', .error failure) :=
  h.result_error (by rw [result_read_folder, hread])

/-- A compilation whose document is recorded comes to read the answer, or, if there is none, the document. -/
theorem comesToRead_compile {r : CompileRequest} {k : Text} {answered : Bool}
    (hk : Cache.key (.object r.document) = .ok k) (hrecorded : store.has w.files (Cache.inputEntry k) = .ok true)
    (hanswered : store.has w.files (Cache.outputEntry k) = .ok answered) (version : Text) (selection : Selection)
    (post : Postprocessing) : (r.compile version selection post).ComesToRead (backend (.folder store) timeLimit) w
      (if answered then Cache.outputEntry k else Cache.inputEntry k) w := by
  have hfirst : ((backend (.folder store) timeLimit).has (Cache.inputEntry k)).result w = (w, .ok true) :=
    congrArg (Prod.mk w) hrecorded
  have hsecond : ((backend (.folder store) timeLimit).has (Cache.outputEntry k)).result w = (w, .ok answered) :=
    congrArg (Prod.mk w) hanswered
  rw [CompileRequest.compile, CacheState.resolve, hk]
  -- it looks for the document and for the answer, tells what it found and, if there is an answer, that it is cached
  refine .of_step (Program.step_has hfirst _) (.of_step (Program.step_has hsecond _) (.of_step rfl ?_))
  cases answered with
  | true => exact .of_step rfl ⟨_, .refl⟩
  | false => exact ⟨_, .refl⟩

end Workshop

/-! ## The command -/

namespace CommandLine

variable {w w' : Workshop} {a : BuildArguments} {path cache : Path} {settings : ProjectConfig} {failure : Failure}

theorem result_build_of_error (hfolder : folder w.files a.folder = .ok (.ok path))
    (hconfig : config w.files path = .ok (.ok settings))
    (hcache : cacheFolder w.files a settings path = .ok cache)
    (hbuild : ((order a settings path).build w.files).result
      (Workshop.backend (.folder ⟨cache⟩) settings.timeLimit) w = (w', .error failure)) :
    (build a).result w = (w', ended failure) := by
  rw [result_build_of_finds ⟨hfolder, hconfig, hcache⟩, builtWith, hbuild]

end CommandLine

/-! ## Entries that cannot be read -/

namespace FolderStore

/-- **Reading an entry yields an object or a complaint of the store**, unless the entry is one of those that nothing
foresees. A compilation whose document is recorded comes to read the answer, or, if there is none, the document. One
that comes to read an entry that cannot be read fails with the failure of the reading, and a command that does ends
with code one if the store complained, and without a code otherwise. -/
theorem read_complains_or_escapes (store : FolderStore) :
    (∀ files name, store.Readout files name (store.read files name)) ∧
    (∀ files name defect, store.read files name = .error (.unforeseen defect) ↔ store.Escapes files name defect) ∧
    (∀ (r : CompileRequest) version selection post timeLimit w k answered,
      Cache.key (.object r.document) = .ok k → store.has w.files (Cache.inputEntry k) = .ok true →
      store.has w.files (Cache.outputEntry k) = .ok answered →
      (r.compile version selection post).ComesToRead (Workshop.backend (.folder store) timeLimit) w
        (if answered then Cache.outputEntry k else Cache.inputEntry k) w) ∧
    (∀ (r : CompileRequest) version selection post timeLimit w entry w' failure,
      (r.compile version selection post).ComesToRead (Workshop.backend (.folder store) timeLimit) w entry w' →
      store.read w'.files entry = .error failure →
      (r.compile version selection post).result (Workshop.backend (.folder store) timeLimit) w =
        (w', .error failure)) ∧
    ∀ arguments a w path settings entry w' failure, Request.ofArguments arguments = .build a →
      CommandLine.folder w.files a.folder = .ok (.ok path) →
      CommandLine.config w.files path = .ok (.ok settings) →
      CommandLine.cacheFolder w.files a settings path = .ok store.folder →
      ((CommandLine.order a settings path).build w.files).ComesToRead
        (Workshop.backend (.folder store) settings.timeLimit) w entry w' →
      store.read w'.files entry = .error failure →
      (CommandLine.run arguments).result w = (w', CommandLine.ended failure) := by
  refine ⟨store.readout_read, fun _ _ _ => read_eq_unforeseen_iff, ?_, ?_, ?_⟩
  · intro r version selection post timeLimit w k answered hk hrecorded hanswered
    exact Workshop.comesToRead_compile hk hrecorded hanswered version selection post
  · intro r version selection post timeLimit w entry w' failure hcomes hread
    exact Workshop.result_of_comesToRead hcomes hread
  · intro arguments a w path settings entry w' failure harguments hfolder hconfig hcache hcomes hread
    rw [CommandLine.result_run arguments harguments]
    exact CommandLine.result_build_of_error hfolder hconfig hcache (Workshop.result_of_comesToRead hcomes hread)

/-- An entry whose file holds an octet that no text begins with. -/
def undecodableEntry : Files where
  entries := [(["cache"], .folder), (["cache", "x.json"], .file [0xff])]

/-- Neither an object is read of it, nor does the store complain. -/
theorem undecodableEntry_escapes :
    (¬ ∃ value, read ⟨⟨0, ["cache"]⟩⟩ undecodableEntry "x" = .ok value) ∧
      ¬ ∃ fault, read ⟨⟨0, ["cache"]⟩⟩ undecodableEntry "x" = .error (.cache fault) := by
  have hnamed : nameFault? ⟨⟨0, ["cache"]⟩⟩ "x" = none := by decide
  have hread : undecodableEntry.readOctets (path ⟨⟨0, ["cache"]⟩⟩ "x") = .ok [0xff] := by decide +kernel
  have hdecode : Text.decodeUtf8 [0xff] = .error ⟨0, 0xff, 1, .invalidStart⟩ := by decide +kernel
  have hescapes := read_of_escapes (.octets hnamed hread hdecode)
  refine ⟨?_, ?_⟩
  · rintro ⟨value, hvalue⟩
    exact nomatch hescapes.symm.trans hvalue
  · rintro ⟨fault, hfault⟩
    exact nomatch hescapes.symm.trans hfault

end FolderStore

end SolidityBuild
