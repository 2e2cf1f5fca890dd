import SolidityBuild.Proofs.Build.Repetition
import SolidityBuild.Proofs.Tools.Commands

/-!
What the compiler reads. The compiler is not given the document of the call but the one that is recorded
under its key, which an earlier call may have recorded, and it reads this document as a text. Whatever the
programs at hand and the answers to commands are, every recorded document is that of a call with the same key;
so, where no documents collide, what the compiler reads is the document of the call up to the order of keys.
-/

set_option autoImplicit false

namespace SolidityBuild

open Json

/-! ## Calls on the programs at hand -/

/-- A compilation by the programs at hand, which every call finds anew. -/
structure Job where
  submission : Submission
  version : Text
  selection : Selection
  post : Postprocessing
  bench : Workbench
  timeLimit : Nat := Compiler.defaultTimeLimit

namespace Job

/-- The document that is compiled. -/
def document (j : Job) : Json := j.submission.document

/-- Runs a compilation on the store of a workshop. -/
def run (j : Job) (w : Workshop) : Workshop × Narrated Bundle :=
  ((j.submission.request.compile j.version j.selection j.post).run
    (Workshop.backend .memory j.timeLimit)).run { w with bench := j.bench }

/-- The commands that a compilation gives. -/
def commands (j : Job) (w : Workshop) : List Command :=
  (j.run w).1.bench.history.drop j.bench.history.length

end Job

/-- The workshop after a sequence of compilations. -/
def Workshop.afterJobs (w : Workshop) (jobs : List Job) : Workshop :=
  jobs.foldl (fun w j => (j.run w).1) w

/-! ## One call -/

theorem fst_follow_still {σ α β : Type} (r : σ × Except Failure α) (f : α → Except Failure β) :
    (follow r fun a s => (s, f a)).1 = r.1 := by
  obtain ⟨s, outcome⟩ := r
  cases outcome <;> rfl

namespace Job

variable {j : Job} {k : Text} {documents : Set Json}

/-- The workshop in which a call looks for an answer: its document is recorded. -/
def recorded (j : Job) (w : Workshop) (k : Text) : Workshop :=
  { w with bench := j.bench, memory := w.memory.record k j.document }

/-- The workbench after an invocation of a call. -/
def benchAfter (j : Job) (request : Json) : Workbench :=
  ((Compiler.invoke j.version request j.timeLimit).result j.bench).1

/-- The store in memory after an invocation of a call: what the compiler answered is stored. -/
def memoryAfter (j : Job) (m : MemoryStore) (k : Text) (request : Json) : MemoryStore :=
  match ((Compiler.invoke j.version request j.timeLimit).result j.bench).2 with
  | .ok report => Table.put m (Cache.outputEntry k) report.render
  | .error _ => m

/-- The workshop after an invocation of a call. -/
def invoked (j : Job) (w : Workshop) (k : Text) (request : Json) : Workshop :=
  { w with bench := j.benchAfter request, memory := j.memoryAfter (w.memory.record k j.document) k request }

/-- What a call leaves behind: its document is recorded, and unless an answer is held, the compiler is invoked
on what is recorded. -/
theorem run_eq (w : Workshop) (hk : Cache.key j.document = .ok k) {request : Json}
    (hread : (w.memory.record k j.document).read (Cache.inputEntry k) = .ok request) :
    (j.run w).1 =
      if w.memory.has (Cache.outputEntry k) then j.recorded w k else j.invoked w k request := by
  have hremembers := Workshop.remembers j.timeLimit
  have hrun : (j.run w).1 = ((CacheState.answer ⟨k, w.memory.has (Cache.outputEntry k)⟩ j.version).result
      (Workshop.backend .memory j.timeLimit) (j.recorded w k)).1 := by
    have hresult := hremembers.result_compile { w with bench := j.bench } j.version j.selection j.post hk
    exact (congrArg Prod.fst hresult).trans (fst_follow_still _ _)
  rw [hrun]
  cases w.memory.has (Cache.outputEntry k) with
  | true =>
    rw [hremembers.result_answer_held]
    rfl
  | false =>
    have hrecorded : (j.recorded w k).memory.read (Cache.inputEntry k) = .ok request := hread
    have hinvoke : ((Workshop.backend .memory j.timeLimit).invoke j.version request).result
        (j.recorded w k) = ({ j.recorded w k with bench := j.benchAfter request },
          ((Compiler.invoke j.version request j.timeLimit).result j.bench).2) := rfl
    rw [hremembers.result_answer_fresh, hrecorded, follow_ok, hinvoke, if_neg Bool.false_ne_true, invoked,
      memoryAfter]
    cases ((Compiler.invoke j.version request j.timeLimit).result j.bench).2 with
    | error failure => rfl
    | ok report => rfl

/-- The commands of a call that finds no answer are those of an invocation. -/
theorem commands_of_fresh {w : Workshop} (hk : Cache.key j.document = .ok k) {request : Json}
    (hread : (w.memory.record k j.document).read (Cache.inputEntry k) = .ok request)
    (hfresh : w.memory.has (Cache.outputEntry k) = false) :
    j.commands w = (j.benchAfter request).history.drop j.bench.history.length := by
  rw [commands, run_eq w hk hread, hfresh, if_neg Bool.false_ne_true, invoked]

/-- Every compiling command of a call has the text of what is recorded on its input. -/
theorem input_of_compiles {w : Workshop} (hk : Cache.key j.document = .ok k) {request : Json}
    (hread : (w.memory.record k j.document).read (Cache.inputEntry k) = .ok request) {command : Command}
    (hmem : command ∈ j.commands w) (hcompiles : command.Compiles) : command.input = some request.render := by
  cases hheld : w.memory.has (Cache.outputEntry k) with
  | true =>
    rw [commands, run_eq w hk hread, hheld, if_pos rfl, recorded, List.drop_length] at hmem
    exact absurd hmem List.not_mem_nil
  | false =>
    obtain ⟨given, hhistory, hgiven⟩ := (Compiler.gives_invoke j.version request j.timeLimit j.bench).commands
    have hafter : (j.benchAfter request).history = j.bench.history ++ given := hhistory
    rw [commands_of_fresh hk hread hheld, hafter, List.drop_left] at hmem
    exact hgiven command hmem hcompiles

theorem wellFormed_document (j : Job) : WellFormed Text.PairFree j.document :=
  j.submission.wellFormed_document.mono fun _ => Text.Scalar.pairFree

/-- In a store of known documents, what is recorded under the key of a call is one of them. -/
theorem exists_recorded {w : Workshop} (h : w.memory.Recorded documents) (hj : j.document ∈ documents)
    (hk : Cache.key j.document = .ok k) : ∃ document ∈ documents, Cache.key document = .ok k ∧
      (w.memory.record k j.document).read (Cache.inputEntry k) = .ok document :=
  h.record hj j.wellFormed_document hk k (MemoryStore.has_inputEntry_record _ k j.document)

/-- A call keeps a store of known documents one, if its own document is among them. -/
theorem recorded_run {w : Workshop} (h : w.memory.Recorded documents) (hj : j.document ∈ documents) :
    (j.run w).1.memory.Recorded documents := by
  obtain ⟨k, hk⟩ := j.submission.exists_key
  obtain ⟨request, -, -, hread⟩ := exists_recorded h hj hk
  have hrecord := h.record hj j.wellFormed_document hk
  rw [run_eq w hk hread]
  split
  · exact hrecord
  · rw [invoked, memoryAfter]
    split
    · exact hrecord.put_output k _
    · exact hrecord

end Job

/-! ## Sessions -/

namespace Workshop

variable (w : Workshop)

/-- Every recorded document is that of a call. The induction is on the calls, in their order. -/
theorem recorded_afterJobs {documents : Set Json} (h : w.memory.Recorded documents) (jobs : List Job)
    (hjobs : ∀ j ∈ jobs, j.document ∈ documents) : (w.afterJobs jobs).memory.Recorded documents := by
  induction jobs generalizing w with
  | nil => exact h
  | cons j jobs ih =>
    obtain ⟨hj, hrest⟩ := List.forall_mem_cons.mp hjobs
    exact ih (j.run w).1 (Job.recorded_run h hj) hrest

/-- **The compiler reads the document that is asked for.** Whenever a call of a session has the compiler answer
a request, the text on its input is that of a document which is equal, up to the order of keys, to the document
of this call; whatever the programs at hand, the answers to commands and the calls before are, if no two
documents of the calls collide. -/
theorem compiler_reads_requested_document (jobs : List Job) (j : Job)
    (hdocuments : Cache.Collisionless {d | ∃ i ∈ j :: jobs, i.document = d}) (command : Command)
    (hmem : command ∈ j.commands (w.emptied.afterJobs jobs)) (hcompiles : command.Compiles) :
    ∃ text document, command.input = some text ∧ Json.parse text = .ok document ∧
      Json.Reordered document j.document := by
  obtain ⟨k, hk⟩ := j.submission.exists_key
  have hself : j.document ∈ {d | ∃ i ∈ j :: jobs, i.document = d} := ⟨j, List.mem_cons_self, rfl⟩
  have hbefore : (w.emptied.afterJobs jobs).memory.Recorded {d | ∃ i ∈ j :: jobs, i.document = d} :=
    w.emptied.recorded_afterJobs (.empty _) jobs fun i hi => ⟨i, List.mem_cons_of_mem j hi, rfl⟩
  -- what is recorded under the key of the call is the document of a call with this key
  obtain ⟨document, hdocument, hkey, hread⟩ := Job.exists_recorded hbefore hself hk
  have hinput := Job.input_of_compiles hk hread hmem hcompiles
  obtain ⟨i, -, rfl⟩ := id hdocument
  exact ⟨i.document.render, i.document, hinput, parse_render i.wellFormed_document,
    hdocuments.reordered hdocument hself i.wellFormed_document j.wellFormed_document hkey hk⟩

end Workshop

/-! ## A request that is repeated in another order -/

/-- A workbench whose compiler fails on every request. -/
def failingBench : Workbench :=
  ⟨[("solc-select", "/usr/bin/solc-select"), ("solc", "/usr/bin/solc")], [], [], [], [],
    fun _ _ => .finished 1 [] [], []⟩

/-- A compilation of a request with two settings by a compiler that fails. -/
def switchesJob (k l : String) (h : (k : Text) ≠ l) : Job where
  submission := settingsSubmission (switches k l) (wellFormed_switches h)
  version := "latest"
  selection := .all
  post := .default
  bench := failingBench

/-- The command that has the compiler answer a request. -/
def compileCommand (request : Json) : Command :=
  ⟨["/usr/bin/solc", Command.compileOption], Compiler.defaultTimeLimit, none, some request.render⟩

theorem switchesJob_documents_alike {k l : String} (h : (k : Text) ≠ l) (hk : ("remappings" : Text) ≠ k)
    (hl : ("remappings" : Text) ≠ l) :
    Alike Text.Scalar (switchesJob k l h).document (switchesJob l k h.symm).document :=
  (switchesCall_repeats h hk hl "latest" "latest").documents_alike

/-- After a failed compilation of a request with two settings, the compiler reads the recorded document also
when the settings come in the other order. -/
theorem Workshop.compiler_reads_recorded_order :
    let i := switchesJob "viaIR" "debug" (by decide)
    let j := switchesJob "debug" "viaIR" (by decide)
    let command := compileCommand i.document
    Cache.Collisionless {d | ∃ a ∈ [j, i], a.document = d} ∧
      command ∈ j.commands (bareWorkshop.emptied.afterJobs [i]) ∧ command.Compiles ∧
      ∃ text document, command.input = some text ∧ Json.parse text = .ok document ∧
        Json.Reordered document j.document := by
  intro i j command
  have halike : Alike Text.Scalar i.document j.document :=
    switchesJob_documents_alike (by decide) (by decide) (by decide)
  have hcollisionless : Cache.Collisionless {d | ∃ a ∈ [j, i], a.document = d} := by
    refine .of_reordered i.submission.wellFormed_document ?_
    rintro d ⟨a, ha, rfl⟩
    rcases List.mem_pair.mp ha with rfl | rfl
    · exact halike.reordered
    · exact .refl _
  obtain ⟨k, hk⟩ := i.submission.exists_key
  have hkj : Cache.key j.document = .ok k := by
    rw [← hk]
    exact (Cache.key_eq_of_reordered i.submission.wellFormed_document halike.reordered).symm
  -- the first call records its document, the second finds it
  have hread : (MemoryStore.record [] k i.document).read (Cache.inputEntry k) = .ok i.document :=
    MemoryStore.read_put_self [] _ i.wellFormed_document
  have hafter : bareWorkshop.emptied.afterJobs [i] = i.invoked bareWorkshop.emptied k i.document :=
    Job.run_eq bareWorkshop.emptied hk hread
  have hfound : ((MemoryStore.record [] k i.document).record k j.document).read (Cache.inputEntry k) =
      .ok i.document := (MemoryStore.extends_record _ k j.document).read hread
  have hfresh : (MemoryStore.record [] k i.document).has (Cache.outputEntry k) = false :=
    MemoryStore.has_outputEntry_record [] k i.document k
  have hcommands : j.commands (i.invoked bareWorkshop.emptied k i.document) = [command] :=
    Job.commands_of_fresh hkj hfound hfresh
  have hmem : command ∈ j.commands (bareWorkshop.emptied.afterJobs [i]) := by
    rw [hafter, hcommands]
    exact List.mem_singleton_self command
  exact ⟨hcollisionless, hmem, rfl,
    bareWorkshop.compiler_reads_requested_document [i] j hcollisionless command hmem rfl⟩

end SolidityBuild
