import SolidityBuild.Event
import SolidityBuild.Failure

/-!
Computations that tell events on their way and may fail, without state and with it. What was told and
done before a failure stays told and done: the events and the state are there whatever the outcome is.
-/

set_option autoImplicit false

namespace SolidityBuild

/-- What a computation told, and its outcome. -/
structure Narrated (α : Type) where
  events : List Event
  outcome : Except Failure α

namespace Narrated

variable {α β : Type}

/-- Tells events. -/
def tell (events : List Event) : Narrated Unit := ⟨events, .ok ()⟩

/-- An outcome without events. -/
def ofExcept (outcome : Except Failure α) : Narrated α := ⟨[], outcome⟩

/-- The same without events of the lowest level. -/
def notable (x : Narrated α) : Narrated α := ⟨x.events.filter Event.isNotable, x.outcome⟩

instance : Monad Narrated where
  pure a := ⟨[], .ok a⟩
  bind x f :=
    match x.outcome with
    | .error e => ⟨x.events, .error e⟩
    | .ok a => ⟨x.events ++ (f a).events, (f a).outcome⟩

end Narrated

/-- A computation on a state. -/
structure Task (σ α : Type) where
  run : σ → σ × Narrated α

namespace Task

variable {σ τ α β : Type}

instance : Monad (Task σ) where
  pure a := ⟨fun s => (s, pure a)⟩
  bind x f := ⟨fun s =>
    match x.run s with
    | (s, ⟨events, .error e⟩) => (s, ⟨events, .error e⟩)
    | (s, ⟨events, .ok a⟩) =>
      match (f a).run s with
      | (s, ⟨events', outcome⟩) => (s, ⟨events ++ events', outcome⟩)⟩

/-- A computation that leaves the state alone. -/
def ofNarrated (x : Narrated α) : Task σ α := ⟨fun s => (s, x)⟩

/-- An outcome without events, the state left alone. -/
def ofExcept (outcome : Except Failure α) : Task σ α := ofNarrated (.ofExcept outcome)

/-- Fails. -/
def fail (failure : Failure) : Task σ α := ofExcept (.error failure)

/-- Tells an event. -/
def tell (event : Event) : Task σ Unit := ofNarrated (.tell [event])

/-- What a function gives for the state. -/
def ask (f : σ → α) : Task σ α := ⟨fun s => (s, pure (f s))⟩

/-- What a function that may fail gives for the state. -/
def look (f : σ → Except Failure α) : Task σ α := ⟨fun s => (s, .ofExcept (f s))⟩

/-- A change of the state with a result. -/
def change (f : σ → σ × α) : Task σ α := ⟨fun s => ((f s).1, pure (f s).2)⟩

/-- A change of the state that may fail. -/
def attempt (f : σ → σ × Except Failure α) : Task σ α := ⟨fun s => ((f s).1, .ofExcept (f s).2)⟩

/-- A computation whose foreseen failures are results. -/
def foreseen (x : Task σ α) : Task σ (Except Failure α) :=
  ⟨fun s =>
    match x.run s with
    | (s, ⟨events, .ok a⟩) => (s, ⟨events, .ok (.ok a)⟩)
    | (s, ⟨events, .error e⟩) =>
      (s, ⟨events, if e.isForeseen then .ok (.error e) else .error e⟩)⟩

/-- The same computation, telling no events of the lowest level. -/
def notable (x : Task σ α) : Task σ α := ⟨fun s => ((x.run s).1, (x.run s).2.notable)⟩

/-- The same computation on a part of a larger state. -/
def on (part : τ → σ) (put : τ → σ → τ) (x : Task σ α) : Task τ α :=
  ⟨fun s => (put s (x.run (part s)).1, (x.run (part s)).2)⟩

end Task

end SolidityBuild
