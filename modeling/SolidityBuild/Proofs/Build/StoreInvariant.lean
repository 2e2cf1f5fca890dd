import SolidityBuild.Proofs.Build.Remembering
import SolidityBuild.Proofs.Build.Session
import SolidityBuild.Proofs.Document.CompileRequest

/-!
What the store holds in every session. A call goes one of three ways: the store has an answer to its
document; or the compiler is invoked and fails; or it is invoked and its answer is stored. Which one it is
and what each does to the store is said once, in `Call.Course`; that recorded documents keep their keys,
that stored answers are those of the compiler, and that entries stay as they are, follows for a single
call and then for every session.
-/

set_option autoImplicit false

namespace SolidityBuild

open Json

/-! ## Sessions keep their documents in memory -/

namespace Session

/-- The session with another store in memory. -/
def withMemory (s : Session) (m : MemoryStore) : Session :=
  { s with workshop := { s.workshop with memory := m } }

/-- The store in memory. -/
def memory (s : Session) : MemoryStore := s.workshop.memory

theorem remembers (compiler : CompilerModel) : (backend compiler).Remembers memory withMemory where
  has _ _ := rfl
  read _ _ := rfl
  write _ _ _ := rfl
  memory_remember _ _ := rfl
  remember_memory _ := rfl

theorem result_invoke (compiler : CompilerModel) (s : Session) (version : Text) (request : Json) :
    ((backend compiler).invoke version request).result s =
      ({ s with invocations := s.invocations ++ [⟨version, request, compiler version request⟩] },
        (compiler version request).map fun answer => answer.json) := rfl

end Session

/-! ## What a call does -/

/-- The ways in which a call on a workshop goes whose document has the key `k`. -/
inductive Call.Course (c : Call) (w : Workshop) (k : Text) : CallRecord → Prop where
  | held {answer : Json} (held : w.memory.read (Cache.outputEntry k) = .ok answer) :
      Course c w k ⟨c, w, [], { w with memory := w.memory.record k c.document }, c.bundle answer⟩
  | failed {request : Json} {failure : Failure} (fresh : w.memory.has (Cache.outputEntry k) = false)
      (recorded : (w.memory.record k c.document).read (Cache.inputEntry k) = .ok request)
      (outcome : c.compiler c.version request = .error failure) :
      Course c w k ⟨c, w, [⟨c.version, request, .error failure⟩],
        { w with memory := w.memory.record k c.document }, .error failure⟩
  | answered {request : Json} {answer : Answer}
      (fresh : w.memory.has (Cache.outputEntry k) = false)
      (recorded : (w.memory.record k c.document).read (Cache.inputEntry k) = .ok request)
      (outcome : c.compiler c.version request = .ok answer) :
      Course c w k ⟨c, w, [⟨c.version, request, .ok answer⟩],
        { w with memory :=
            Table.put (w.memory.record k c.document) (Cache.outputEntry k) answer.json.render },
        c.bundle answer.json⟩

namespace Call

variable {c : Call} {w : Workshop} {k : Text}

theorem run_eq (c : Call) (w : Workshop) :
    c.run w =
      let r := (c.submission.request.compile c.version c.selection c.post).result
        (Session.backend c.compiler) ⟨w, []⟩
      ⟨c, w, r.1.invocations, r.1.workshop, r.2⟩ := rfl

/-- A compilation is the recording of its document, the answer to it, and what is made of the answer. -/
theorem result_compile (hk : c.key = .ok k) :
    (c.submission.request.compile c.version c.selection c.post).result (Session.backend c.compiler) ⟨w, []⟩ =
      follow ((CacheState.answer ⟨k, w.memory.has (Cache.outputEntry k)⟩ c.version).result
          (Session.backend c.compiler) (Session.withMemory ⟨w, []⟩ (w.memory.record k c.document)))
        fun report s => (s, c.bundle report) :=
  (Session.remembers c.compiler).result_compile ⟨w, []⟩ c.version c.selection c.post hk

theorem wellFormed_sent (c : Call) : WellFormed Text.Scalar c.submission.request.toJson :=
  c.submission.wellFormed_sent

theorem wellFormed_document (c : Call) : WellFormed Text.Scalar c.document := c.submission.wellFormed_document

/-- Every document that is compiled has a key. -/
theorem exists_key (c : Call) : ∃ k, c.key = .ok k := c.submission.exists_key

end Call

/-! ## The invariant -/

/-- What a store holds after the invocations in `log`. -/
structure StoreInvariant (log : List Invocation) (m : MemoryStore) : Prop where
  /-- What is recorded under a key is an object with that key. -/
  recorded : ∀ d, m.has (Cache.inputEntry d) = true →
    ∃ entries, m.read (Cache.inputEntry d) = .ok (.object entries) ∧ Cache.key (.object entries) = .ok d
  /-- An answer is what the compiler gave when it was invoked on what is recorded under the same key. -/
  answered : ∀ d, m.has (Cache.outputEntry d) = true →
    ∃ i ∈ log, ∃ answer : Answer, i.outcome = .ok answer ∧
      m.read (Cache.inputEntry d) = .ok i.request ∧ m.read (Cache.outputEntry d) = .ok answer.json

namespace StoreInvariant

variable {log : List Invocation} {m : MemoryStore} {k : Text}

theorem empty : StoreInvariant [] [] := by
  constructor <;> intro d h
  · exact nomatch h
  · exact nomatch h

theorem append (h : StoreInvariant log m) (more : List Invocation) : StoreInvariant (log ++ more) m := by
  refine ⟨h.recorded, ?_⟩
  intro d hd
  obtain ⟨i, hi, hrest⟩ := h.answered d hd
  exact ⟨i, List.mem_append_left more hi, hrest⟩

theorem record (h : StoreInvariant log m) {entries : Table Json}
    (hwell : WellFormed Text.PairFree (.object entries)) (hk : Cache.key (.object entries) = .ok k) :
    StoreInvariant log (m.record k (.object entries)) := by
  unfold MemoryStore.record
  split
  · exact h
  -- Only the entry of the key is new, and it stands for no answer.
  constructor
  · intro d hd
    by_cases hdk : d = k
    · rw [hdk]
      exact ⟨entries, MemoryStore.read_put_self m _ hwell, hk⟩
    · have hne : Cache.inputEntry d ≠ Cache.inputEntry k := by
        intro he
        exact hdk (Cache.inputEntry_injective he)
      rw [MemoryStore.has_put_of_ne hne] at hd
      rw [MemoryStore.read_put_of_ne hne]
      exact h.recorded d hd
  · intro d hd
    have hout : Cache.outputEntry d ≠ Cache.inputEntry k := Ne.symm (Cache.inputEntry_ne_outputEntry k d)
    rw [MemoryStore.has_put_of_ne hout] at hd
    obtain ⟨i, hi, answer, hanswer, hrequest, hread⟩ := h.answered d hd
    have hext := MemoryStore.extends_put (Bool.eq_false_iff.mpr ‹_›) (Json.object entries).render
    exact ⟨i, hi, answer, hanswer, hext.read hrequest, hext.read hread⟩

theorem answer (h : StoreInvariant log m) {version : Text} {request : Json} {answer : Answer}
    (fresh : m.has (Cache.outputEntry k) = false) (hread : m.read (Cache.inputEntry k) = .ok request) :
    StoreInvariant (log ++ [⟨version, request, .ok answer⟩])
      (Table.put m (Cache.outputEntry k) answer.json.render) := by
  have hext := MemoryStore.extends_put fresh answer.json.render
  -- No document is recorded here, and the answer is new under its own key only.
  constructor
  · intro d hd
    have hne := Cache.inputEntry_ne_outputEntry d k
    rw [MemoryStore.has_put_of_ne hne] at hd
    rw [MemoryStore.read_put_of_ne hne]
    exact h.recorded d hd
  · intro d hd
    by_cases hdk : d = k
    · rw [hdk]
      exact ⟨⟨version, request, .ok answer⟩, List.mem_append_right log List.mem_cons_self, answer, rfl,
        hext.read hread, MemoryStore.read_put_self m _ answer.wellFormed⟩
    · have hne : Cache.outputEntry d ≠ Cache.outputEntry k := by
        intro he
        exact hdk (Cache.outputEntry_injective he)
      rw [MemoryStore.has_put_of_ne hne] at hd
      obtain ⟨i, hi, a, ha, hrequest, hanswer⟩ := h.answered d hd
      exact ⟨i, List.mem_append_left _ hi, a, ha, hext.read hrequest, hext.read hanswer⟩

end StoreInvariant

/-! ## Calls -/

namespace Call

variable {c : Call} {w : Workshop} {k : Text} {log : List Invocation} {r : CallRecord}

theorem invariant_record (h : StoreInvariant log w.memory) (hk : c.key = .ok k) :
    StoreInvariant log (w.memory.record k c.document) := by
  have hpair : WellFormed Text.PairFree c.document :=
    c.wellFormed_document.mono fun _ => Text.Scalar.pairFree
  exact h.record hpair hk

/-- **A call goes one of the three ways.** -/
theorem run_course (h : StoreInvariant log w.memory) (hk : c.key = .ok k) : Course c w k (c.run w) := by
  rw [run_eq, result_compile hk]
  cases hheld : w.memory.has (Cache.outputEntry k) with
  | true =>
    -- an answer that is there can be read, as it was written by an earlier call
    obtain ⟨-, -, answer, -, -, hread⟩ := h.answered k hheld
    have hrecorded : (Session.withMemory ⟨w, []⟩ (w.memory.record k c.document)).memory.read
        (Cache.outputEntry k) = .ok answer.json := (MemoryStore.extends_record _ k c.document).read hread
    rw [(Session.remembers c.compiler).result_answer_held, hrecorded]
    exact .held hread
  | false =>
    -- the document has just been recorded, or an earlier one under the same key is
    obtain ⟨entries, hread, -⟩ := (invariant_record h hk).recorded k
      (MemoryStore.has_inputEntry_record w.memory k c.document)
    have hrecorded : (Session.withMemory ⟨w, []⟩ (w.memory.record k c.document)).memory.read
        (Cache.inputEntry k) = .ok (.object entries) := hread
    rw [(Session.remembers c.compiler).result_answer_fresh, hrecorded]
    rw [follow_ok, Session.result_invoke]
    cases houtcome : c.compiler c.version (.object entries) with
    | error failure => exact .failed hheld hread houtcome
    | ok answer => exact .answered hheld hread houtcome

/-- A call keeps the invariant. -/
theorem Course.invariant (hr : Course c w k r) (h : StoreInvariant log w.memory) (hk : c.key = .ok k) :
    StoreInvariant (log ++ r.invocations) r.after.memory := by
  have hrecorded := invariant_record h hk
  cases hr with
  | held _ => exact hrecorded.append []
  | failed _ _ _ => exact hrecorded.append _
  | answered fresh recorded _ =>
    rw [← MemoryStore.has_outputEntry_record _ k c.document] at fresh
    exact hrecorded.answer fresh recorded

/-- A call changes no entry that is there before it. -/
theorem Course.extends (hr : Course c w k r) : w.memory.Extends r.after.memory := by
  have hrecorded := MemoryStore.extends_record w.memory k c.document
  cases hr with
  | held _ => exact hrecorded
  | failed _ _ _ => exact hrecorded
  | answered fresh _ _ =>
    rw [← MemoryStore.has_outputEntry_record _ k c.document] at fresh
    exact hrecorded.trans (MemoryStore.extends_put fresh _)

end Call

/-! ## Sessions -/

namespace Workshop

variable (w : Workshop) (calls : List Call) (c : Call)

theorem after_append (more : List Call) : w.after (calls ++ more) = (w.after calls).after more :=
  List.foldl_append

theorem after_concat : w.after (calls ++ [c]) = (c.run (w.after calls)).after := w.after_append calls [c]

theorem history_append (more : List Call) :
    w.history (calls ++ more) = w.history calls ++ (w.after calls).history more := by
  induction calls generalizing w with
  | nil => rfl
  | cons c calls ih => exact congrArg (c.run w :: ·) (ih _)

theorem history_concat : w.history (calls ++ [c]) = w.history calls ++ [c.run (w.after calls)] :=
  w.history_append calls [c]

theorem invocations_concat :
    w.invocations (calls ++ [c]) = w.invocations calls ++ (c.run (w.after calls)).invocations := by
  unfold invocations
  rw [history_concat, List.flatMap_append, List.flatMap_singleton]

/-- The invariant holds after every session. The induction is on its last call, which finds a store that
satisfies it. -/
theorem invariant_after :
    StoreInvariant (w.emptied.invocations calls) (w.emptied.after calls).memory := by
  induction calls using List.reverseRecOn with
  | nil => exact .empty
  | append_singleton calls c ih =>
    obtain ⟨k, hk⟩ := c.exists_key
    rw [invocations_concat, after_concat]
    exact (Call.run_course ih hk).invariant ih hk

/-- The course of the call after a session. -/
theorem course_after : ∃ k, c.key = .ok k ∧
    c.Course (w.emptied.after calls) k (c.run (w.emptied.after calls)) := by
  obtain ⟨k, hk⟩ := c.exists_key
  exact ⟨k, hk, Call.run_course (w.invariant_after calls) hk⟩

/-- **The store of every session.** Whatever was called, and however it ended: every recorded document
has the key under which it stands; every answer stands beside the recorded document that the compiler was
given when it gave this answer, and is read back as it was given; and no call changes or removes an entry
that was there before it. -/
theorem store_invariant_and_entries_kept :
    StoreInvariant (w.emptied.invocations calls) (w.emptied.after calls).memory ∧
      (w.emptied.after calls).memory.Extends (w.emptied.after (calls ++ [c])).memory := by
  refine ⟨w.invariant_after calls, ?_⟩
  obtain ⟨k, -, hcourse⟩ := w.course_after calls c
  rw [after_concat]
  exact hcourse.extends

end Workshop

end SolidityBuild
