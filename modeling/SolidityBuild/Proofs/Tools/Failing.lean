import SolidityBuild.Proofs.Json.RoundTrip
import SolidityBuild.Proofs.Tools.Plans

/-!
How an invocation of the compiler fails. Whatever goes wrong with a command is foreseen, and so is a compiler that
prints no object, with what it wrote to its error stream. Only one thing that it may print is not: a whole number
with more digits than the reader of numbers allows.
-/

set_option autoImplicit false

namespace SolidityBuild

namespace Compiler

variable {w : Workbench} {version : Text} {request : Json} {timeLimit : Nat} {stdout stderr : Text}

/-! ## What is read from what the compiler printed -/

/-- What comes of what the compiler printed: the object that it spells, a foreseen failure with what was written to
the error stream, or, for a number that is too long, a failure that is not foreseen. -/
inductive Reports (stdout stderr : Text) : Except Failure Json → Prop where
  | object {entries : Table Json} (parse : Json.parse stdout = .ok (.object entries)) :
      Reports stdout stderr (.ok (.object entries))
  | refused {fault : InvocationFault} (short : ∀ digits, Json.parse stdout ≠ .error (.tooManyDigits digits))
      (captured : fault.stderr = stderr) : Reports stdout stderr (.error (.invocation fault))
  | tooLong {digits : Nat} (parse : Json.parse stdout = .error (.tooManyDigits digits)) :
      Reports stdout stderr (.error (.unforeseen (.tooManyDigits digits)))

theorem reports_readReport (stdout stderr : Text) : Reports stdout stderr (readReport stdout stderr) := by
  rw [readReport]
  cases hparse : Json.parse stdout with
  | ok j =>
    have hshort : ∀ digits, Json.parse stdout ≠ .error (.tooManyDigits digits) := by
      intro digits heq
      cases hparse.symm.trans heq
    cases j with
    | object entries => exact .object hparse
    | null | bool _ | int _ | float _ | text _ | list _ => exact .refused hshort rfl
  | error fault =>
    cases fault with
    | notJson fault =>
      refine .refused (fun digits heq => ?_) rfl
      cases hparse.symm.trans heq
    | tooManyDigits digits => exact .tooLong hparse

/-! ## What an invocation fails with -/

/-- An invocation that is answered comes to what is read from what the compiler printed. -/
theorem reports_of_answered (h : Answered w version request timeLimit stdout stderr) :
    Reports stdout stderr ((invoke version request timeLimit).result w).2 := by
  have hcourse := course_invoke w version request timeLimit
  generalize (invoke version request timeLimit).result w = r at hcourse ⊢
  cases hcourse with
  | stopped split history succeeded failed => exact (Workbench.not_succeed_of_stopped split failed h.succeeded).elim
  | missing selector history succeeded => exact (h.selector selector).elim
  | answered history answered =>
    obtain ⟨rfl, rfl⟩ := h.unique answered
    exact reports_readReport stdout stderr

/-- An invocation that fails in another way than with an invocation fault was answered. -/
theorem exists_answered {failure : Failure} (hfailure : ∀ fault, failure ≠ .invocation fault)
    (h : ((invoke version request timeLimit).result w).2 = .error failure) :
    ∃ stdout stderr, Answered w version request timeLimit stdout stderr := by
  have hcourse := course_invoke w version request timeLimit
  generalize (invoke version request timeLimit).result w = r at hcourse h
  cases hcourse with
  | stopped split history succeeded failed => exact (hfailure _ (Except.error.inj h).symm).elim
  | missing selector history succeeded => exact (hfailure _ (Except.error.inj h).symm).elim
  | answered history answered => exact ⟨_, _, answered⟩

/-- An invocation that is answered with a number that is too long fails with it. -/
theorem fails_of_long_number {digits : Nat} (h : Answered w version request timeLimit stdout stderr)
    (hparse : Json.parse stdout = .error (.tooManyDigits digits)) :
    ((invoke version request timeLimit).result w).2 = .error (.unforeseen (.tooManyDigits digits)) := by
  have hreports := reports_of_answered h
  generalize ((invoke version request timeLimit).result w).2 = outcome at hreports
  cases hreports with
  | object parse => exact nomatch hparse.symm.trans parse
  | refused short => exact (short digits hparse).elim
  | tooLong parse =>
    cases hparse.symm.trans parse
    rfl

/-- **An invocation fails as foreseen, unless the compiler prints a number that is too long**: then, and only then, it
fails in another way. Whatever else the compiler prints when it succeeds, its object is returned, or what it wrote to
the error stream is reported. -/
theorem invoke_fails_unforeseen_iff (w : Workbench) (version : Text) (request : Json) (timeLimit : Nat) :
    (∀ failure, ((invoke version request timeLimit).result w).2 = .error failure →
      (∃ fault, failure = .invocation fault) ∨ ∃ digits, failure = .unforeseen (.tooManyDigits digits)) ∧
    (∀ digits, ((invoke version request timeLimit).result w).2 = .error (.unforeseen (.tooManyDigits digits)) ↔
      ∃ stdout stderr, Answered w version request timeLimit stdout stderr ∧
        Json.parse stdout = .error (.tooManyDigits digits)) ∧
    ∀ stdout stderr, Answered w version request timeLimit stdout stderr →
      (∀ digits, Json.parse stdout ≠ .error (.tooManyDigits digits)) →
      (∃ entries, Json.parse stdout = .ok (.object entries) ∧
        ((invoke version request timeLimit).result w).2 = .ok (.object entries)) ∨
      ∃ fault, ((invoke version request timeLimit).result w).2 = .error (.invocation fault) ∧
        fault.stderr = stderr := by
  refine ⟨fun failure hfailed => ?_, fun digits => ⟨fun hfailed => ?_, fun ⟨_, _, hanswered, hparse⟩ =>
    fails_of_long_number hanswered hparse⟩, fun stdout stderr hanswered hshort => ?_⟩
  · by_contra hnot
    obtain ⟨hfault, hdigits⟩ := not_or.mp hnot
    obtain ⟨stdout, stderr, hanswered⟩ := exists_answered (fun fault heq => hfault ⟨fault, heq⟩) hfailed
    have hreports := reports_of_answered hanswered
    rw [hfailed] at hreports
    cases hreports with
    | refused => exact hfault ⟨_, rfl⟩
    | tooLong => exact hdigits ⟨_, rfl⟩
  · have hnot : ∀ fault, Failure.unforeseen (.tooManyDigits digits) ≠ .invocation fault := fun _ heq => nomatch heq
    obtain ⟨stdout, stderr, hanswered⟩ := exists_answered hnot hfailed
    have hreports := reports_of_answered hanswered
    rw [hfailed] at hreports
    cases hreports with
    | tooLong parse => exact ⟨stdout, stderr, hanswered, parse⟩
  · have hreports := reports_of_answered hanswered
    generalize ((invoke version request timeLimit).result w).2 = outcome at hreports
    cases hreports with
    | object parse => exact .inl ⟨_, parse, rfl⟩
    | refused _ captured => exact .inr ⟨_, rfl, captured⟩
    | tooLong parse => exact (hshort _ parse).elim

/-! ## A compiler that prints a long number -/

/-- A number with one digit more than a number may have. -/
def longNumber : Text := List.replicate (Json.digitLimit + 1) 49

theorem parse_longNumber : Json.parse longNumber = .error (.tooManyDigits 4301) := by
  have hlength : longNumber.length = 4301 := List.length_replicate
  have hwhole : Json.WholePart longNumber := by
    refine ⟨fun c hc => ?_, List.cons_ne_nil _ _, .inr fun heq => ?_⟩
    · rw [List.eq_of_mem_replicate hc]
      rfl
    · exact absurd (Option.some.inj heq) (by decide)
  rw [← hlength]
  exact Json.parse_of_many_digits hwhole (hlength ▸ Nat.lt_succ_self _)

/-- A workbench with a compiler that prints the number for every request. -/
def numberBench : Workbench where
  onPath := [(selectorName, "/usr/bin/solc-select"), (compilerName, "/usr/bin/solc")]
  scriptsFolder := "/opt/venv/bin"
  inScripts := []
  installer := "/usr/bin/python3"
  installable := []
  respond _ c := .finished 0 (if c.Compiles then longNumber else []) []

/-- Not every invocation that fails does so with an invocation fault. -/
theorem numberBench_fails_unforeseen :
    ((invoke "0.8.20" (.object []) 600).result numberBench).2 = .error (.unforeseen (.tooManyDigits 4301)) ∧
      ¬ ∃ fault, ((invoke "0.8.20" (.object []) 600).result numberBench).2 = .error (.invocation fault) := by
  have hselector : numberBench.selector? ≠ none := by decide
  have hanswered : Answered numberBench "0.8.20" (.object []) 600 longNumber [] :=
    ⟨hselector, fun _ _ _ => ⟨_, _, rfl⟩, rfl⟩
  have hfails := fails_of_long_number hanswered parse_longNumber
  refine ⟨hfails, ?_⟩
  rintro ⟨fault, hfault⟩
  exact nomatch hfails.symm.trans hfault

end Compiler

end SolidityBuild
