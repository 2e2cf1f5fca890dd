import SolidityBuild.Proofs.Build.Results
import Mathlib.Logic.Relation

/-!
Computations step by step. A step answers the first request of a computation and leaves the rest of it; between
two steps anything may happen to the state. Steps that are taken without interruption are the run of the
computation.
-/

set_option autoImplicit false

namespace SolidityBuild

namespace Program

variable {σ α β : Type}

/-- What is left of a computation once its request has an answer. -/
def resume (r : σ × Except Failure β) (next : β → Program α) : σ × Program α :=
  match r with
  | (s, .ok b) => (s, next b)
  | (s, .error e) => (s, .fail e)

/-- One step of a computation, unless it is at its end. -/
def step (backend : Backend σ) (s : σ) : Program α → Option (σ × Program α)
  | done _ => none
  | fail _ => none
  | tell _ next => some (s, next)
  | has entry next => some (resume ((backend.has entry).result s) next)
  | read entry next => some (resume ((backend.read entry).result s) next)
  | write entry value next => some (resume ((backend.write entry value).result s) fun _ => next)
  | invoke version request next => some (resume ((backend.invoke version request).result s) next)
  | framework kind folder next => some (resume ((backend.framework kind folder).result s) next)

variable (backend : Backend σ)

/-- A computation can take a step unless it is at its end. -/
theorem step_eq_none_iff {x : Program α} {s : σ} : x.step backend s = none ↔ ∃ r, x = ofExcept r := by
  constructor
  · intro h
    cases x with
    | done value => exact ⟨.ok value, rfl⟩
    | fail failure => exact ⟨.error failure, rfl⟩
    | _ => exact nomatch h
  · rintro ⟨r, rfl⟩
    cases r <;> rfl

/-- One computation after the other, in as many steps as they take. -/
def Steps : σ × Program α → σ × Program α → Prop :=
  Relation.ReflTransGen fun a b => a.2.step backend a.1 = some b

theorem steps_resume {r : σ × Except Failure β} {next : β → Program α}
    (h : ∀ b s, Steps backend (s, next b) (((next b).result backend s).1,
      ofExcept ((next b).result backend s).2)) :
    Steps backend (resume r next) ((follow r fun b => (next b).result backend).1,
      ofExcept (follow r fun b => (next b).result backend).2) := by
  obtain ⟨s, outcome⟩ := r
  cases outcome with
  | ok b => exact h b s
  | error e => exact .refl

/-- **Uninterrupted steps are the run.** -/
theorem steps_result (x : Program α) (s : σ) :
    Steps backend (s, x) ((x.result backend s).1, ofExcept (x.result backend s).2) := by
  induction x generalizing s with
  | done value => exact .refl
  | fail failure => exact .refl
  | tell event next ih =>
    rw [result_tell]
    exact .head rfl (ih s)
  | has entry next ih =>
    rw [result_has]
    exact .head rfl (steps_resume backend ih)
  | read entry next ih =>
    rw [result_read]
    exact .head rfl (steps_resume backend ih)
  | write entry value next ih =>
    rw [result_write]
    exact .head rfl (steps_resume backend fun _ => ih)
  | invoke version request next ih =>
    rw [result_invoke]
    exact .head rfl (steps_resume backend ih)
  | framework kind folder next ih =>
    rw [result_framework]
    exact .head rfl (steps_resume backend ih)

variable {backend} {x y : Program α} {s s' : σ}

theorem result_resume (r : σ × Except Failure β) (next : β → Program α) :
    (resume r next).2.result backend (resume r next).1 = follow r fun b => (next b).result backend := by
  obtain ⟨s, outcome⟩ := r
  cases outcome <;> rfl

/-- A step leaves what a computation comes to as it is. -/
theorem result_of_step (h : x.step backend s = some (s', y)) : x.result backend s = y.result backend s' := by
  cases x with
  | done value => exact nomatch h
  | fail failure => exact nomatch h
  | tell event next =>
    cases h
    rw [result_tell]
  | has entry next =>
    obtain ⟨rfl, rfl⟩ := Prod.ext_iff.mp (Option.some.inj h)
    rw [result_has, ← result_resume]
  | read entry next =>
    obtain ⟨rfl, rfl⟩ := Prod.ext_iff.mp (Option.some.inj h)
    rw [result_read, ← result_resume]
  | write entry value next =>
    obtain ⟨rfl, rfl⟩ := Prod.ext_iff.mp (Option.some.inj h)
    rw [result_write, ← result_resume]
  | invoke version request next =>
    obtain ⟨rfl, rfl⟩ := Prod.ext_iff.mp (Option.some.inj h)
    rw [result_invoke, ← result_resume]
  | framework kind folder next =>
    obtain ⟨rfl, rfl⟩ := Prod.ext_iff.mp (Option.some.inj h)
    rw [result_framework, ← result_resume]

/-- **So do several.** -/
theorem result_of_steps (h : Steps backend (s, x) (s', y)) : x.result backend s = y.result backend s' := by
  generalize ha : (s, x) = a at h
  generalize hb : (s', y) = b at h
  induction h generalizing s' y with
  | refl =>
    obtain ⟨rfl, rfl⟩ := Prod.mk.inj (ha.trans hb.symm)
    rfl
  | @tail c d _ hstep ih =>
    obtain ⟨s₁, x₁⟩ := c
    subst hb
    exact (ih rfl).trans (result_of_step hstep)

end Program

end SolidityBuild
