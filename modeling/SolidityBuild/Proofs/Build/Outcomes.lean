import SolidityBuild.Proofs.Build.Repetition

/-!
What calls of a session come to. A call that got an answer comes to what is made of the answer; a call that got
none failed as the compiler did. So if the compiler fails in foreseen ways only, the one failure that nothing
foresees is that of remappings which cannot be listed.
-/

set_option autoImplicit false

namespace SolidityBuild

open Json

namespace Call.Course

variable {c : Call} {w : Workshop} {k : Text} {r : CallRecord}

/-- An answer is in the store after a call, and the outcome is made of it; or there is none, and the compiler
failed. -/
theorem outcome_cases (hr : Course c w k r) :
    (∃ answer, r.after.memory.read (Cache.outputEntry k) = .ok answer ∧ r.outcome = c.bundle answer) ∨
      r.after.memory.has (Cache.outputEntry k) = false ∧
        ∃ request failure, c.compiler c.version request = .error failure ∧ r.outcome = .error failure := by
  cases hr with
  | @held answer held => exact .inl ⟨answer, (MemoryStore.extends_record _ k c.document).read held, rfl⟩
  | @failed request failure fresh _ outcome =>
    rw [← MemoryStore.has_outputEntry_record _ k c.document] at fresh
    exact .inr ⟨fresh, request, failure, outcome, rfl⟩
  | @answered _ answer _ _ _ =>
    exact .inl ⟨answer.json, MemoryStore.read_put_self _ _ answer.wellFormed, rfl⟩

end Call.Course

/-- On an empty store, where the compiler answers every document, the answer to the document of a call is in the
store after it, and its outcome is made of this answer. -/
theorem Call.run_emptied (compile : Json → Answer) {c : Call} {k : Text} (hk : c.key = .ok k)
    (hcompiler : ∀ d, c.compiler c.version d = .ok (compile d)) (w : Workshop) :
    (c.run w.emptied).after.memory.read (Cache.outputEntry k) = .ok (compile c.document).json ∧
      (c.run w.emptied).outcome = c.bundle (compile c.document).json := by
  have hpair : WellFormed Text.PairFree c.document := c.wellFormed_document.mono fun _ => Text.Scalar.pairFree
  have hown : (MemoryStore.record [] k c.document).read (Cache.inputEntry k) = .ok c.document :=
    MemoryStore.read_put_self [] _ hpair
  have hcourse := Call.run_course (w := w.emptied) .empty hk
  generalize c.run w.emptied = r at hcourse ⊢
  cases hcourse with
  | held held => exact nomatch MemoryStore.has_of_read held
  | failed _ _ outcome =>
    rw [hcompiler] at outcome
    exact nomatch outcome
  | answered _ recorded outcome =>
    obtain rfl := Except.ok.inj (hown.symm.trans recorded)
    obtain rfl := Except.ok.inj ((hcompiler _).symm.trans outcome)
    exact ⟨MemoryStore.read_put_self _ _ (compile c.document).wellFormed, rfl⟩

/-- What is made of an answer does not fail as the cache does. -/
theorem Call.bundle_ne_cache (c : Call) (answer : Json) (fault : CacheFault) :
    c.bundle answer ≠ .error (.cache fault) := by
  intro h
  rcases Bundle.error_normalize c.submission.request.sources_document h with hrefusal | ⟨-, -, -, -, hremappings⟩
  · exact nomatch hrefusal
  · obtain ⟨-, defect, hdefect⟩ := Bundle.error_remappingsFrom hremappings
    exact nomatch hdefect

/-! ## Failures that nothing foresees -/

/-- The remappings that the settings of a call ask for, as they are sent; null if they ask for none. -/
def Call.askedRemappings (c : Call) : Json := Bundle.askedRemappings c.submission.request.entries

/-- What nothing foresees when an answer is made into the bundle of a call. -/
theorem Call.bundle_unforeseen_iff (c : Call) (answer : Json) :
    (∃ defect, c.bundle answer = .error (.unforeseen defect)) ↔
      Bundle.Unlistable c.askedRemappings ∧ ∃ report artifacts,
        CompileReport.accept answer = .ok report ∧ report.extract c.selection = .ok artifacts := by
  rw [askedRemappings, ← CompileRequest.askedRemappings_document]
  exact Bundle.outcome_unforeseen_iff c.submission.request.sources_document

/-- **The failures that nothing foresees.** After any session, a call whose compiler answers or fails in its
invocation fails in an unforeseen way exactly if its settings ask for remappings that are a truth value, a
number, or a list that holds something else than texts, and there is an answer to its document that is accepted
and in which the selected contracts are found. -/
theorem Workshop.call_fails_unforeseen_iff (w : Workshop) (calls : List Call) (c : Call)
    (hcompiler : ∀ version request failure, c.compiler version request = .error failure →
      ∃ fault, failure = .invocation fault) :
    (∃ defect, (c.run (w.emptied.after calls)).outcome = .error (.unforeseen defect)) ↔
      Bundle.Unlistable c.askedRemappings ∧ ∃ k answer report artifacts, c.key = .ok k ∧
        (c.run (w.emptied.after calls)).after.memory.read (Cache.outputEntry k) = .ok answer ∧
        CompileReport.accept answer = .ok report ∧ report.extract c.selection = .ok artifacts := by
  obtain ⟨k, hk, hcourse⟩ := w.course_after calls c
  generalize c.run (w.emptied.after calls) = r at hcourse ⊢
  rcases hcourse.outcome_cases with ⟨answer, hread, houtcome⟩ | ⟨hnone, request, failure, hfails, houtcome⟩
  · rw [houtcome, c.bundle_unforeseen_iff]
    constructor
    · rintro ⟨hlist, report, artifacts, haccept, hextract⟩
      exact ⟨hlist, k, answer, report, artifacts, hk, hread, haccept, hextract⟩
    · rintro ⟨hlist, k', answer', report, artifacts, hk', hread', haccept, hextract⟩
      obtain rfl := Except.ok.inj (hk.symm.trans hk')
      obtain rfl := Except.ok.inj (hread.symm.trans hread')
      exact ⟨hlist, report, artifacts, haccept, hextract⟩
  · -- there is no answer, and the failure is that of an invocation
    obtain ⟨fault, rfl⟩ := hcompiler _ _ _ hfails
    constructor
    · rintro ⟨defect, hdefect⟩
      exact nomatch houtcome.symm.trans hdefect
    · rintro ⟨-, k', answer, -, -, hk', hread, -, -⟩
      obtain rfl := Except.ok.inj (hk.symm.trans hk')
      rw [MemoryStore.has_of_read hread] at hnone
      exact nomatch hnone

/-! ## Remappings that are a truth value -/

theorem wellFormed_truthRemappings : WellFormed Text.Scalar (.object [("remappings", .bool true)]) :=
  .singleton (Text.scalar_ofString "remappings") (.bool true)

/-- A call whose settings ask for remappings that are a truth value, with a compiler that answers. -/
def truthRemappingsCall : Call :=
  ⟨settingsSubmission [("remappings", .bool true)] wellFormed_truthRemappings, "0.8.20", .all, .default,
    fun _ _ => .ok emptyAnswer⟩

theorem unlistable_truthRemappings : Bundle.Unlistable truthRemappingsCall.askedRemappings := by
  have hasked : truthRemappingsCall.askedRemappings = .bool true := rfl
  rw [hasked]
  trivial

/-- The compiler answers, and the call fails as a truth value has no items. -/
theorem Workshop.truth_remappings_have_no_items :
    (truthRemappingsCall.run (bareWorkshop.emptied.after [])).outcome =
      .error (.unforeseen (.noItems (.bool true))) := by
  obtain ⟨k, hk⟩ := truthRemappingsCall.exists_key
  exact (Call.run_emptied (fun _ => emptyAnswer) hk (fun _ => rfl) bareWorkshop).2

/-- The answer to a call whose remappings are a truth value is accepted, and all contracts are found in it. -/
theorem Workshop.truth_remappings_call_fails_unforeseen :
    (∃ defect, (truthRemappingsCall.run (bareWorkshop.emptied.after [])).outcome =
      .error (.unforeseen defect)) ∧ Bundle.Unlistable truthRemappingsCall.askedRemappings := by
  obtain ⟨k, hk⟩ := truthRemappingsCall.exists_key
  obtain ⟨hread, -⟩ := Call.run_emptied (fun _ => emptyAnswer) hk (fun _ => rfl) bareWorkshop
  have haccept : CompileReport.accept emptyAnswer.json = .ok ⟨[], [], [], []⟩ := rfl
  exact ⟨(bareWorkshop.call_fails_unforeseen_iff [] truthRemappingsCall fun _ _ _ h => nomatch h).mpr
    ⟨unlistable_truthRemappings, k, _, _, _, hk, hread, haccept, rfl⟩, unlistable_truthRemappings⟩

end SolidityBuild
