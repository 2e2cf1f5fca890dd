import SolidityBuild.Narrated

/-!
Outcomes of computations, taken apart. Hardly anything that is proved of computations depends on the events that
they tell, so most are compared by the state that they leave and by their outcome.
-/

set_option autoImplicit false

namespace SolidityBuild

/-! ## Outcomes in sequence -/

section Outcomes

variable {ε α β : Type} {x : Except ε α} {f : α → Except ε β}

theorem bind_eq_ok {b : β} (h : (x >>= f) = .ok b) : ∃ a, x = .ok a ∧ f a = .ok b := by
  cases x with
  | error e => exact nomatch h
  | ok a => exact ⟨a, rfl, h⟩

theorem bind_eq_error {e : ε} (h : (x >>= f) = .error e) :
    x = .error e ∨ ∃ a, x = .ok a ∧ f a = .error e := by
  cases x with
  | error e' =>
    cases h
    exact .inl rfl
  | ok a => exact .inr ⟨a, rfl, h⟩

end Outcomes

/-! ## Computations without state -/

theorem Narrated.outcome_bind {α β : Type} (x : Narrated α) (f : α → Narrated β) :
    (x >>= f).outcome = x.outcome >>= fun a => (f a).outcome := by
  obtain ⟨events, outcome⟩ := x
  cases outcome <;> rfl

theorem Narrated.outcome_ofExcept {α : Type} (x : Except Failure α) :
    (Narrated.ofExcept x).outcome = x := rfl

theorem Narrated.outcome_tell (events : List Event) : (Narrated.tell events).outcome = .ok () := rfl

/-! ## Computations on a state -/

section Results

variable {σ α β : Type}

/-- The state that a computation leaves, and its outcome. -/
def Task.result (x : Task σ α) (s : σ) : σ × Except Failure α := ((x.run s).1, (x.run s).2.outcome)

/-- What follows a result. -/
def follow (r : σ × Except Failure α) (f : α → σ → σ × Except Failure β) : σ × Except Failure β :=
  match r with
  | (s, .ok a) => f a s
  | (s, .error e) => (s, .error e)

theorem follow_ok (s : σ) (a : α) (f : α → σ → σ × Except Failure β) : follow (s, .ok a) f = f a s := rfl

/-- What is followed fails, or something follows what it gives. -/
theorem follow_cases {r : σ × Except Failure α} {f : α → σ → σ × Except Failure β} {s' : σ}
    {outcome : Except Failure β} (h : follow r f = (s', outcome)) :
    (∃ e, r = (s', .error e) ∧ outcome = .error e) ∨ ∃ s a, r = (s, .ok a) ∧ f a s = (s', outcome) := by
  obtain ⟨s, o⟩ := r
  cases o with
  | ok a => exact .inr ⟨s, a, rfl, h⟩
  | error e =>
    cases h
    exact .inl ⟨e, rfl, rfl⟩

/-- Something is given in the end if what is followed gives something, and what follows it does. -/
theorem follow_eq_ok_iff {r : σ × Except Failure α} {f : α → σ → σ × Except Failure β} {s' : σ} {b : β} :
    follow r f = (s', .ok b) ↔ ∃ s a, r = (s, .ok a) ∧ f a s = (s', .ok b) := by
  constructor
  · intro h
    rcases follow_cases h with ⟨e, -, herror⟩ | hfollowed
    · exact nomatch herror
    · exact hfollowed
  · rintro ⟨s, a, rfl, h⟩
    exact h

theorem follow_outcome_eq_ok_iff {outcome : Except Failure α} {f : α → σ → σ × Except Failure β} {s s' : σ}
    {b : β} : follow (s, outcome) f = (s', .ok b) ↔ ∃ a, outcome = .ok a ∧ f a s = (s', .ok b) := by
  rw [follow_eq_ok_iff]
  constructor
  · rintro ⟨s, a, h, hfollows⟩
    obtain ⟨rfl, rfl⟩ := Prod.mk.inj h
    exact ⟨a, rfl, hfollows⟩
  · rintro ⟨a, rfl, hfollows⟩
    exact ⟨s, a, rfl, hfollows⟩

/-- Whatever is said of what is given, it is said of no failure. -/
theorem forall_of_error {P : α → Prop} (e : Failure) :
    ∀ a, (Except.error e : Except Failure α) = .ok a → P a := by
  intro a h
  cases h

theorem Task.result_bind (x : Task σ α) (f : α → Task σ β) (s : σ) :
    (x >>= f).result s = follow (x.result s) fun a => (f a).result := by
  obtain ⟨run⟩ := x
  rw [Task.result, Task.result]
  simp only [bind]
  obtain ⟨s', events, outcome⟩ := run s
  cases outcome <;> rfl

/-- What fails is not gone on from. -/
theorem Task.run_bind_error {x : Task σ α} {f : α → Task σ β} {s s' : σ} {events : List Event} {e : Failure}
    (hx : x.run s = (s', ⟨events, .error e⟩)) : (x >>= f).run s = (s', ⟨events, .error e⟩) := by
  simp only [Bind.bind, hx]

/-- What goes on tells its events after those that were told. -/
theorem Task.run_bind_ok {x : Task σ α} {f : α → Task σ β} {s s' : σ} {events : List Event} {a : α}
    (hx : x.run s = (s', ⟨events, .ok a⟩)) :
    (x >>= f).run s =
      (((f a).run s').1, ⟨events ++ ((f a).run s').2.events, ((f a).run s').2.outcome⟩) := by
  simp only [Bind.bind, hx]

@[simp] theorem Task.result_pure (a : α) (s : σ) : (pure a : Task σ α).result s = (s, .ok a) := rfl

@[simp] theorem Task.result_fail (e : Failure) (s : σ) : (Task.fail e : Task σ α).result s = (s, .error e) := rfl

@[simp] theorem Task.result_tell (event : Event) (s : σ) : (Task.tell event).result s = (s, .ok ()) := rfl

@[simp] theorem Task.result_ofNarrated (x : Narrated α) (s : σ) :
    (Task.ofNarrated x).result s = (s, x.outcome) := rfl

theorem Task.result_ask (f : σ → α) (s : σ) : (Task.ask f).result s = (s, .ok (f s)) := rfl

theorem Task.result_ofExcept (outcome : Except Failure α) (s : σ) :
    (Task.ofExcept outcome : Task σ α).result s = (s, outcome) := rfl

theorem Task.result_notable (x : Task σ α) : x.notable.result = x.result := rfl

/-- Failures that are foreseen are results; the others stay failures. -/
theorem Task.result_foreseen (x : Task σ α) (s : σ) : x.foreseen.result s =
    match x.result s with
    | (s', .ok a) => (s', .ok (.ok a))
    | (s', .error e) => (s', if e.isForeseen then .ok (.error e) else .error e) := by
  rw [result, foreseen, result]
  dsimp only
  rcases x.run s with ⟨s', events, e | a⟩ <;> rfl

@[simp] theorem Task.result_change (f : σ → σ × α) (s : σ) :
    (Task.change f).result s = ((f s).1, .ok (f s).2) := rfl

theorem follow_assoc {γ : Type} (r : σ × Except Failure α) (f : α → σ → σ × Except Failure β)
    (g : β → σ → σ × Except Failure γ) : follow (follow r f) g = follow r fun a s => follow (f a s) g := by
  obtain ⟨s, outcome⟩ := r
  cases outcome <;> rfl

theorem follow_congr (r : σ × Except Failure α) {f g : α → σ → σ × Except Failure β}
    (h : ∀ a s, f a s = g a s) : follow r f = follow r g := by
  obtain ⟨s, outcome⟩ := r
  cases outcome with
  | ok a => exact h a s
  | error e => rfl

end Results

end SolidityBuild
