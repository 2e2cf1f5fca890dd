import SolidityBuild.Build.Compilation
import SolidityBuild.Proofs.Narrated

/-!
Results of programs on a backend: the state that is left, and the outcome. A request is answered first, and what
follows it goes on from the state in which it is answered; so the result of a program that goes on with another one is
the result of the second from where the first one ends. A compilation is taken apart in this way once, and what is
proved of compilations starts from its parts.
-/

set_option autoImplicit false

namespace SolidityBuild

variable {σ α β : Type}

/-- The result of a program on a backend. -/
def Program.result (backend : Backend σ) (x : Program α) (s : σ) : σ × Except Failure α :=
  (x.run backend).result s

namespace Program

variable (backend : Backend σ)

/-- What follows a request goes on from the state in which it is answered. -/
theorem result_of_run_eq {x : Program α} {request : Task σ β} {next : β → Program α}
    (h : x.run backend = request >>= fun answer => (next answer).run backend) (s : σ) :
    x.result backend s = follow (request.result s) fun answer => (next answer).result backend := by
  rw [result, h, Task.result_bind]
  rfl

theorem result_tell (event : Event) (next : Program α) (s : σ) :
    (tell event next).result backend s = next.result backend s := by
  have htold : (tell event next).run backend = Task.tell event >>= fun _ => next.run backend := rfl
  exact result_of_run_eq backend htold s

theorem result_has (entry : Text) (next : Bool → Program α) (s : σ) :
    (has entry next).result backend s =
      follow ((backend.has entry).result s) fun answer => (next answer).result backend :=
  result_of_run_eq backend rfl s

theorem result_read (entry : Text) (next : Json → Program α) (s : σ) :
    (read entry next).result backend s =
      follow ((backend.read entry).result s) fun answer => (next answer).result backend :=
  result_of_run_eq backend rfl s

theorem result_write (entry : Text) (value : Json) (next : Program α) (s : σ) :
    (write entry value next).result backend s =
      follow ((backend.write entry value).result s) fun _ => next.result backend :=
  result_of_run_eq backend rfl s

theorem result_invoke (version : Text) (request : Json) (next : Json → Program α) (s : σ) :
    (invoke version request next).result backend s =
      follow ((backend.invoke version request).result s) fun answer => (next answer).result backend :=
  result_of_run_eq backend rfl s

theorem result_framework (kind : ProjectKind) (folder : Path) (next : FrameworkOutcome → Program α)
    (s : σ) : (framework kind folder next).result backend s =
      follow ((backend.framework kind folder).result s) fun answer => (next answer).result backend :=
  result_of_run_eq backend rfl s

theorem result_andThen (x : Program α) (f : α → Program β) (s : σ) :
    (x.andThen f).result backend s = follow (x.result backend s) fun a => (f a).result backend := by
  -- a request is made in the same state on both sides; what follows it is an induction hypothesis
  induction x generalizing s with
  | done value => rfl
  | fail failure => rfl
  | tell event next ih => rw [andThen, result_tell, ih, result_tell]
  | has entry next ih =>
    rw [andThen, result_has, result_has, follow_assoc]
    exact follow_congr _ ih
  | read entry next ih =>
    rw [andThen, result_read, result_read, follow_assoc]
    exact follow_congr _ ih
  | write entry value next ih =>
    rw [andThen, result_write, result_write, follow_assoc]
    exact follow_congr _ fun _ => ih
  | invoke version request next ih =>
    rw [andThen, result_invoke, result_invoke, follow_assoc]
    exact follow_congr _ ih
  | framework kind folder next ih =>
    rw [andThen, result_framework, result_framework, follow_assoc]
    exact follow_congr _ ih

theorem result_bind (x : Program α) (f : α → Program β) (s : σ) :
    (x >>= f).result backend s = follow (x.result backend s) fun a => (f a).result backend :=
  result_andThen backend x f s

/-- A narrated computation leaves the state alone and has its own outcome. -/
theorem result_ofNarrated (x : Narrated α) (s : σ) :
    (ofNarrated x).result backend s = (s, x.outcome) := by
  obtain ⟨events, outcome⟩ := x
  rw [ofNarrated]
  induction events with
  | nil => cases outcome <;> rfl
  | cons event events ih =>
    rw [← ih]
    exact result_tell backend event _ s

end Program

/-- **A compilation** is the recording of its document, the answer to it, and what is made of the answer. -/
theorem CompileRequest.result_compile (backend : Backend σ) (r : CompileRequest) (version : Text)
    (selection : Selection) (post : Postprocessing) (s : σ) :
    (r.compile version selection post).result backend s =
      follow ((CacheState.resolve (.object r.document)).result backend s) fun state s =>
        follow ((state.answer version).result backend s) fun report s =>
          (s, (Bundle.normalize report (.text version) (.object r.document) selection post).outcome) := by
  rw [compile, Program.result_bind]
  refine follow_congr _ fun state s => ?_
  rw [Program.result_bind]
  exact follow_congr _ fun report s => Program.result_ofNarrated backend _ s

end SolidityBuild
