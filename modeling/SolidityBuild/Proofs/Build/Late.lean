import SolidityBuild.Build.Project
import SolidityBuild.Build.Workshop
import SolidityBuild.Proofs.Build.Conduct
import SolidityBuild.Proofs.Cache.Writing
import SolidityBuild.Proofs.Cache.Reading
import SolidityBuild.Proofs.Compilation.Refusals
import SolidityBuild.Proofs.Tools.Failing

/-!
The failures of a build before anything is compiled, and why a compilation has none of them. A project that is not
known, a missing version of the compiler, a source that cannot be read and a framework that fails are found out before
the first request to the cache. A compilation fails as its requests do, or as its answer is refused; so it never fails
in one of these ways unless a request does, and neither the stores nor the compiler of ordinary builds do.
-/

set_option autoImplicit false

namespace SolidityBuild

/-- The failures of builds that come to nothing before anything is compiled. -/
inductive Failure.IsEarly : Failure → Prop where
  | version : IsEarly .versionMissing
  | project (name : Text) : IsEarly (.projectUnknown name)
  | provider (kind : ProjectKind) : IsEarly (.providerMissing kind)
  | framework (complaint : Option Text) : IsEarly (.frameworkFailed complaint)
  | source (fault : ProjectFileFault) : IsEarly (.sourceUnreadable fault)

/-- A backend on which no request of a compilation fails early. -/
structure Backend.Late {σ : Type} (backend : Backend σ) : Prop where
  has : ∀ entry s failure, ((backend.has entry).result s).2 = .error failure → ¬ failure.IsEarly
  read : ∀ entry s failure, ((backend.read entry).result s).2 = .error failure → ¬ failure.IsEarly
  write : ∀ entry value s failure, ((backend.write entry value).result s).2 = .error failure → ¬ failure.IsEarly
  invoke : ∀ version request s failure, ((backend.invoke version request).result s).2 = .error failure →
    ¬ failure.IsEarly

namespace Program

variable {σ α β : Type} {backend : Backend σ}

/-- A program that runs no framework and never fails early by itself. -/
def Late : Program α → Prop
  | done _ => True
  | fail failure => ¬ failure.IsEarly
  | tell _ next => next.Late
  | has _ next => ∀ answer, (next answer).Late
  | read _ next => ∀ answer, (next answer).Late
  | write _ _ next => next.Late
  | invoke _ _ next => ∀ answer, (next answer).Late
  | framework _ _ _ => False

theorem late_follow {r : σ × Except Failure β} {next : β → σ → σ × Except Failure α}
    (hfirst : ∀ failure, r.2 = .error failure → ¬ failure.IsEarly)
    (hnext : ∀ b s failure, (next b s).2 = .error failure → ¬ failure.IsEarly) {failure : Failure}
    (h : (follow r next).2 = .error failure) : ¬ failure.IsEarly := by
  obtain ⟨s, outcome⟩ := r
  cases outcome with
  | error failure' =>
    cases h
    exact hfirst _ rfl
  | ok b => exact hnext b s failure h

/-- **A late program fails late**, on a backend whose answers do. -/
theorem Late.result {x : Program α} (hx : x.Late) (h : backend.Late) {s : σ} {failure : Failure}
    (hfails : (x.result backend s).2 = .error failure) : ¬ failure.IsEarly := by
  induction x generalizing s failure with
  | done value => exact nomatch hfails
  | fail failure' =>
    cases hfails
    exact hx
  | tell event next ih =>
    rw [result_tell] at hfails
    exact ih hx hfails
  | has entry next ih =>
    rw [result_has] at hfails
    exact late_follow (h.has entry s) (fun answer s failure => ih answer (hx answer)) hfails
  | read entry next ih =>
    rw [result_read] at hfails
    exact late_follow (h.read entry s) (fun answer s failure => ih answer (hx answer)) hfails
  | write entry value next ih =>
    rw [result_write] at hfails
    exact late_follow (h.write entry value s) (fun _ s failure => ih hx) hfails
  | invoke version request next ih =>
    rw [result_invoke] at hfails
    exact late_follow (h.invoke version request s) (fun answer s failure => ih answer (hx answer)) hfails
  | framework kind folder next => exact hx.elim

theorem Late.conduct {x : Program α} (hx : x.Late) (h : backend.Late) {s : σ} {failure : Failure}
    (hfails : (x.conduct backend s).outcome = .error failure) : ¬ failure.IsEarly := by
  refine hx.result h (s := s) ?_
  rw [result_eq_conduct]
  exact hfails

/-- Late programs in sequence are late. -/
theorem Late.andThen {x : Program α} {f : α → Program β} (hx : x.Late) (hf : ∀ a, (f a).Late) : (x >>= f).Late := by
  induction x with
  | done value => exact hf value
  | fail failure => exact hx
  | tell event next ih => exact ih hx
  | has entry next ih => exact fun answer => ih answer (hx answer)
  | read entry next ih => exact fun answer => ih answer (hx answer)
  | write entry value next ih => exact ih hx
  | invoke version request next ih => exact fun answer => ih answer (hx answer)
  | framework kind folder next => exact hx.elim

theorem late_ofNarrated {x : Narrated α} (h : ∀ failure, x.outcome = .error failure → ¬ failure.IsEarly) :
    (ofNarrated x).Late := by
  obtain ⟨events, outcome⟩ := x
  rw [ofNarrated]
  induction events with
  | nil =>
    cases outcome with
    | ok value => trivial
    | error failure => exact h failure rfl
  | cons event events ih => exact ih h

end Program

/-! ## Compilations -/

theorem Bundle.Refusal.not_early {failure : Failure} (h : Refusal failure) : ¬ failure.IsEarly := by
  intro hearly
  cases hearly <;> exact nomatch h

/-- Looking up a document in the cache, and recording it there, only makes requests. -/
theorem CacheState.late_resolve (document : Json) : (CacheState.resolve document).Late := by
  rw [CacheState.resolve]
  cases Cache.key document with
  | error fault => exact fun hearly => nomatch hearly
  | ok key =>
    intro recorded
    cases recorded with
    | true => exact fun answered => trivial
    | false => exact fun answered => trivial

theorem CacheState.late_answer (state : CacheState) (version : Text) : (state.answer version).Late := by
  rw [CacheState.answer]
  cases state.answered with
  | true => exact fun report => trivial
  | false => exact fun request report => trivial

/-- **A compilation is late**: besides its requests, only an answer can make it fail that is refused, or whose
remappings cannot be made. -/
theorem CompileRequest.late_compile (r : CompileRequest) (version : Text) (selection : Selection)
    (post : Postprocessing) : (r.compile version selection post).Late := by
  refine (CacheState.late_resolve _).andThen fun state => (state.late_answer version).andThen fun report => ?_
  refine Program.late_ofNarrated fun failure hfails => ?_
  rcases Bundle.error_normalize r.sources_document hfails with hrefusal | ⟨-, -, -, -, hremappings⟩
  · exact hrefusal.not_early
  · obtain ⟨-, defect, rfl⟩ := Bundle.error_remappingsFrom hremappings
    exact fun hearly => nomatch hearly

/-- The induction is on the records: each is rejected or compiled. -/
theorem BuildOrder.late_compileRecords (post : Postprocessing) (records : List BuildRecord) :
    (compileRecords post records).Late := by
  induction records with
  | nil => trivial
  | cons record rest ih =>
    rw [compileRecords]
    cases CompileRequest.ofJson (.object record.input) with
    | error rejection => exact fun hearly => nomatch hearly
    | ok request => exact (request.late_compile _ _ _).andThen fun bundle => ih.andThen fun bundles => trivial

/-! ## The backend of ordinary builds -/

theorem FolderStore.late_unwritable (path : Path) (fault : FileFault) : ¬ (unwritable path fault).IsEarly := by
  intro hearly
  cases fault <;> exact nomatch hearly

theorem FolderStore.late_write (store : FolderStore) (files : Files) (name : Text) (value : Json) {failure : Failure}
    (h : (store.write files name (.document value)).2 = .error failure) : ¬ failure.IsEarly := by
  rw [write_document] at h
  rcases hprepare : store.prepare files (value.render.flatMap Text.octetsOf) with ⟨filled, fault | fresh⟩
  · rw [hprepare] at h
    cases h
    exact late_unwritable _ fault
  · rw [hprepare] at h
    dsimp only at h
    cases hnamed : store.nameFault? name with
    | some fault =>
      rw [hnamed] at h
      cases h
      exact fun hearly => nomatch hearly
    | none =>
      rw [hnamed] at h
      dsimp only at h
      cases hmove : filled.move fresh (store.path name) with
      | ok moved =>
        rw [hmove] at h
        exact nomatch h
      | error fault =>
        rw [hmove] at h
        cases h
        exact late_unwritable _ fault

theorem FolderStore.late_read (store : FolderStore) (files : Files) (name : Text) {failure : Failure}
    (h : store.read files name = .error failure) : ¬ failure.IsEarly := by
  have hreadout := store.readout_read files name
  rw [h] at hreadout
  intro hearly
  cases hearly <;> exact nomatch hreadout

theorem FolderStore.late_has (store : FolderStore) (files : Files) (name : Text) {failure : Failure}
    (h : store.has files name = .error failure) : ¬ failure.IsEarly := by
  intro hearly
  rw [has] at h
  split at h
  · cases h
  · split at h
    · cases h
    · cases h
      cases hearly

theorem MemoryStore.late_read (m : MemoryStore) (name : Text) {failure : Failure} (h : m.read name = .error failure) :
    ¬ failure.IsEarly := by
  intro hearly
  rw [read] at h
  split at h
  · cases h
    cases hearly
  · split at h
    · cases h
    · cases h
      cases hearly

/-- Whatever is wrong with an invocation of the compiler, it fails as an invocation does, or with a number that is too
long. -/
theorem Compiler.late_invoke (version : Text) (request : Json) (timeLimit : Nat) (w : Workbench) {failure : Failure}
    (h : ((invoke version request timeLimit).result w).2 = .error failure) : ¬ failure.IsEarly := by
  intro hearly
  have hnot : ∀ fault, failure ≠ .invocation fault := by
    intro fault heq
    subst heq
    exact nomatch hearly
  obtain ⟨stdout, stderr, hanswered⟩ := exists_answered hnot h
  have hreports := reports_of_answered hanswered
  rw [h] at hreports
  cases hreports with
  | refused => exact hnot _ rfl
  | tooLong => exact nomatch hearly

/-- **Ordinary builds** have a late backend, whichever store they use. -/
theorem Workshop.late_backend (choice : StoreChoice) (timeLimit : Nat) : (backend choice timeLimit).Late := by
  refine ⟨fun entry w failure h => ?_, fun entry w failure h => ?_, fun entry value w failure h => ?_,
    fun version request w failure h => Compiler.late_invoke version request timeLimit w.bench h⟩
  · cases choice with
    | memory => exact nomatch h
    | folder store => exact store.late_has w.files entry h
  · cases choice with
    | memory => exact w.memory.late_read entry h
    | folder store => exact store.late_read w.files entry h
  · cases choice with
    | memory => exact nomatch h
    | folder store => exact store.late_write w.files entry value h

end SolidityBuild
