import SolidityBuild.Proofs.Build.Results

/-!
What a computation asks of the compiler. A backend that notes every invocation, with the version and the request,
tells in which order they were made, and that there were no others; otherwise it answers as before. Notes only
grow, so what a computation notes does not depend on what was noted before it, and the notes of two computations
in sequence are those of the first followed by those of the second.
-/

set_option autoImplicit false

namespace SolidityBuild

/-- What the compiler is invoked on. -/
structure Inquiry where
  version : Text
  request : Json

/-- How a computation went: the state it left, what it asked of the compiler, in order, and its outcome. -/
structure Conduct (σ α : Type) where
  state : σ
  inquiries : List Inquiry
  outcome : Except Failure α

variable {σ α β : Type}

/-- A computation that leaves the notes alone. -/
def Task.unnoted (x : Task σ α) : Task (σ × List Inquiry) α := x.on Prod.fst fun s t => (t, s.2)

/-- The same backend, noting what the compiler is invoked on. -/
def Backend.noting (backend : Backend σ) : Backend (σ × List Inquiry) where
  has := fun entry => (backend.has entry).unnoted
  read := fun entry => (backend.read entry).unnoted
  write := fun entry value => (backend.write entry value).unnoted
  invoke := fun version request => do
    .change fun s => ((s.1, s.2 ++ [⟨version, request⟩]), ())
    (backend.invoke version request).unnoted
  framework := fun kind folder => (backend.framework kind folder).unnoted

/-- A result with notes. -/
def noted (notes : List Inquiry) (r : σ × Except Failure α) : (σ × List Inquiry) × Except Failure α :=
  ((r.1, notes), r.2)

theorem Task.result_unnoted (x : Task σ α) (s : σ) (notes : List Inquiry) :
    x.unnoted.result (s, notes) = noted notes (x.result s) := rfl

theorem Backend.result_invoke_noting (backend : Backend σ) (version : Text) (request : Json) (s : σ)
    (notes : List Inquiry) : (backend.noting.invoke version request).result (s, notes) =
      noted (notes ++ [⟨version, request⟩]) ((backend.invoke version request).result s) := by
  rw [noting, Task.result_bind, Task.result_change, follow_ok, Task.result_unnoted]

namespace Conduct

/-- How it went, after what was noted before. -/
def after (notes : List Inquiry) (c : Conduct σ α) : (σ × List Inquiry) × Except Failure α :=
  ((c.state, notes ++ c.inquiries), c.outcome)

end Conduct

namespace Program

variable (backend : Backend σ)

/-- How a program goes on a backend. -/
def conduct (x : Program α) (s : σ) : Conduct σ α :=
  let r := x.result backend.noting (s, [])
  ⟨r.1.1, r.1.2, r.2⟩

/-! ## Notes only grow -/

/-- What follows a request adds its own notes to those there are, be they few or many. -/
theorem follow_noted {next : β → Program α}
    (h : ∀ b s notes, (next b).result backend.noting (s, notes) = ((next b).conduct backend s).after notes)
    (r : σ × Except Failure β) {notes first all : List Inquiry} (hall : all = notes ++ first) :
    follow (noted all r) (fun b => (next b).result backend.noting) =
      Conduct.after notes
        (let r' := follow (noted first r) fun b => (next b).result backend.noting; ⟨r'.1.1, r'.1.2, r'.2⟩) := by
  obtain ⟨s, outcome⟩ := r
  subst hall
  cases outcome with
  | error e => rfl
  | ok b =>
    dsimp only [noted]
    rw [follow_ok, follow_ok, h b s (notes ++ first), h b s first]
    dsimp only [Conduct.after]
    rw [List.append_assoc]

/-- **What was noted before** does not matter to how a program goes. -/
theorem result_noting (x : Program α) (s : σ) (notes : List Inquiry) :
    x.result backend.noting (s, notes) = (x.conduct backend s).after notes := by
  have hnil : ∀ notes : List Inquiry, notes = notes ++ [] := fun notes => notes.append_nil.symm
  induction x generalizing s notes with
  | done value => exact congrArg (fun all => ((s, all), _)) (hnil notes)
  | fail failure => exact congrArg (fun all => ((s, all), _)) (hnil notes)
  | tell event next ih =>
    rw [conduct, result_tell, result_tell]
    exact ih s notes
  | has entry next ih =>
    rw [conduct, result_has, result_has]
    exact follow_noted backend ih ((backend.has entry).result s) (hnil notes)
  | read entry next ih =>
    rw [conduct, result_read, result_read]
    exact follow_noted backend ih ((backend.read entry).result s) (hnil notes)
  | write entry value next ih =>
    rw [conduct, result_write, result_write]
    exact follow_noted backend (fun _ => ih) ((backend.write entry value).result s) (hnil notes)
  | invoke version request next ih =>
    rw [conduct, result_invoke, result_invoke, Backend.result_invoke_noting, Backend.result_invoke_noting]
    exact follow_noted backend ih _ rfl
  | framework kind folder next ih =>
    rw [conduct, result_framework, result_framework]
    exact follow_noted backend ih ((backend.framework kind folder).result s) (hnil notes)

/-! ## Noting changes nothing else -/

theorem follow_unnoted {next : β → Program α}
    (h : ∀ b s notes, (next b).result backend s =
      (((next b).result backend.noting (s, notes)).1.1, ((next b).result backend.noting (s, notes)).2))
    (r : σ × Except Failure β) (notes : List Inquiry) :
    follow r (fun b => (next b).result backend) =
      ((follow (noted notes r) fun b => (next b).result backend.noting).1.1,
        (follow (noted notes r) fun b => (next b).result backend.noting).2) := by
  obtain ⟨s, outcome⟩ := r
  cases outcome with
  | error e => rfl
  | ok b => exact h b s notes

theorem result_eq_noting (x : Program α) (s : σ) (notes : List Inquiry) :
    x.result backend s = ((x.result backend.noting (s, notes)).1.1, (x.result backend.noting (s, notes)).2) := by
  induction x generalizing s notes with
  | done value | fail failure => rfl
  | tell event next ih =>
    rw [result_tell, result_tell]
    exact ih s notes
  | has entry next ih =>
    rw [result_has, result_has]
    exact follow_unnoted backend ih _ notes
  | read entry next ih =>
    rw [result_read, result_read]
    exact follow_unnoted backend ih _ notes
  | write entry value next ih =>
    rw [result_write, result_write]
    exact follow_unnoted backend (fun _ => ih) _ notes
  | invoke version request next ih =>
    rw [result_invoke, result_invoke, Backend.result_invoke_noting]
    exact follow_unnoted backend ih _ _
  | framework kind folder next ih =>
    rw [result_framework, result_framework]
    exact follow_unnoted backend ih _ notes

/-- **A program goes as it does without notes**: it leaves the same state and has the same outcome. -/
theorem result_eq_conduct (x : Program α) (s : σ) :
    x.result backend s = ((x.conduct backend s).state, (x.conduct backend s).outcome) :=
  result_eq_noting backend x s []

/-! ## Programs in sequence -/

variable {x : Program α} {s s' : σ} {inquiries : List Inquiry}

theorem conduct_bind_ok {a : α} (h : x.conduct backend s = ⟨s', inquiries, .ok a⟩) (f : α → Program β) :
    (x >>= f).conduct backend s =
      ⟨((f a).conduct backend s').state, inquiries ++ ((f a).conduct backend s').inquiries,
        ((f a).conduct backend s').outcome⟩ := by
  have hx : x.result backend.noting (s, []) = ((s', inquiries), .ok a) := by
    rw [result_noting, h]
    rfl
  rw [conduct, result_bind, hx, follow_ok, result_noting]
  rfl

/-- A program that only finds something out does not show in how it goes on. -/
theorem conduct_bind_quiet {a : α} (h : x.conduct backend s = ⟨s, [], .ok a⟩) (f : α → Program β) :
    (x >>= f).conduct backend s = (f a).conduct backend s := by
  rw [conduct_bind_ok backend h]
  rfl

theorem conduct_bind_error {e : Failure} (h : x.conduct backend s = ⟨s', inquiries, .error e⟩)
    (f : α → Program β) : (x >>= f).conduct backend s = ⟨s', inquiries, .error e⟩ := by
  have hx : x.result backend.noting (s, []) = ((s', inquiries), .error e) := by
    rw [result_noting, h]
    rfl
  rw [conduct, result_bind, hx]
  rfl

/-- Programs that go in the same way are gone on from in the same way. -/
theorem conduct_bind_congr {y : Program α} (h : x.conduct backend s = y.conduct backend s) (f : α → Program β) :
    (x >>= f).conduct backend s = (y >>= f).conduct backend s := by
  rcases hy : y.conduct backend s with ⟨s', inquiries, outcome⟩
  cases outcome with
  | error e => rw [conduct_bind_error backend hy, conduct_bind_error backend (h.trans hy)]
  | ok a => rw [conduct_bind_ok backend hy, conduct_bind_ok backend (h.trans hy)]

theorem conduct_pure (a : α) (s : σ) : (pure a : Program α).conduct backend s = ⟨s, [], .ok a⟩ := rfl

theorem conduct_fail (e : Failure) (s : σ) : (fail e : Program α).conduct backend s = ⟨s, [], .error e⟩ := rfl

/-- A program that makes no request leaves the state alone and asks nothing. -/
theorem conduct_ofNarrated (x : Narrated α) (s : σ) :
    (ofNarrated x).conduct backend s = ⟨s, [], x.outcome⟩ := by
  rw [conduct, result_ofNarrated]

theorem conduct_tellAll (events : List Event) (next : Program α) (s : σ) :
    (tellAll events next).conduct backend s = next.conduct backend s := by
  induction events with
  | nil => rfl
  | cons event events ih =>
    rw [← ih, tellAll, List.foldr_cons, conduct, result_tell]
    rfl

/-- Nothing comes of telling but that it was told. -/
theorem conduct_told (event : Event) (s : σ) : (tell event (.done ())).conduct backend s = ⟨s, [], .ok ()⟩ :=
  conduct_tellAll backend [event] _ s

variable {kind : ProjectKind} {folder : Path} {outcome : FrameworkOutcome}

/-- A program that runs a framework goes on in the state that the framework left. -/
theorem conduct_framework_ok (h : (backend.framework kind folder).result s = (s', .ok outcome))
    (next : FrameworkOutcome → Program α) :
    (framework kind folder next).conduct backend s = (next outcome).conduct backend s' := by
  have hnoted : (backend.noting.framework kind folder).result (s, []) = ((s', []), .ok outcome) := by
    rw [Backend.noting, Task.result_unnoted, h]
    rfl
  rw [conduct, result_framework, hnoted]
  rfl

theorem conduct_framework_error {e : Failure} (h : (backend.framework kind folder).result s = (s', .error e))
    (next : FrameworkOutcome → Program α) : (framework kind folder next).conduct backend s = ⟨s', [], .error e⟩ := by
  have hnoted : (backend.noting.framework kind folder).result (s, []) = ((s', []), .error e) := by
    rw [Backend.noting, Task.result_unnoted, h]
    rfl
  rw [conduct, result_framework, hnoted]
  rfl

end Program

end SolidityBuild
