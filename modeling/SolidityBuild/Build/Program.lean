import SolidityBuild.Document.BuildRecord
import SolidityBuild.Narrated
import SolidityBuild.Files.Path
import SolidityBuild.Project.Kind

/-!
A build as a tree of requests. What a build does to the world are single requests (look whether a cache
entry is there, read it, write it, invoke the compiler, run a framework), each with all that may follow
it, depending on the answer. A backend answers requests from a state; running a build on a backend is
one way to use the tree, interleaving it with others, step by step, is another.
-/

set_option autoImplicit false

namespace SolidityBuild

/-- A computation by requests. -/
inductive Program (α : Type) where
  | done (value : α)
  | fail (failure : Failure)
  | tell (event : Event) (next : Program α)
  | has (entry : Text) (next : Bool → Program α)
  | read (entry : Text) (next : Json → Program α)
  | write (entry : Text) (value : Json) (next : Program α)
  | invoke (version : Text) (request : Json) (next : Json → Program α)
  | framework (kind : ProjectKind) (folder : Path) (next : FrameworkOutcome → Program α)

namespace Program

variable {α β σ : Type}

/-- Goes on with what a computation gives. -/
def andThen (x : Program α) (f : α → Program β) : Program β :=
  match x with
  | done value => f value
  | fail failure => fail failure
  | tell event next => tell event (next.andThen f)
  | has entry next => has entry fun answer => (next answer).andThen f
  | read entry next => read entry fun answer => (next answer).andThen f
  | write entry value next => write entry value (next.andThen f)
  | invoke version request next => invoke version request fun answer => (next answer).andThen f
  | framework kind folder next => framework kind folder fun answer => (next answer).andThen f

instance : Monad Program where
  pure := done
  bind := andThen

/-- An outcome without requests. -/
def ofExcept : Except Failure α → Program α
  | .ok value => done value
  | .error failure => fail failure

/-- Tells events and goes on. -/
def tellAll (events : List Event) (next : Program α) : Program α := events.foldr tell next

/-- A narrated computation as one without requests. -/
def ofNarrated (x : Narrated α) : Program α := tellAll x.events (ofExcept x.outcome)

end Program

/-- Answers to requests, from a state. -/
structure Backend (σ : Type) where
  has : Text → Task σ Bool
  read : Text → Task σ Json
  write : Text → Json → Task σ Unit
  invoke : Text → Json → Task σ Json
  framework : ProjectKind → Path → Task σ FrameworkOutcome

namespace Program

variable {α σ : Type}

/-- The computation with every request answered by a backend. The first answer that is a failure is the
failure of the whole. -/
def run (backend : Backend σ) : Program α → Task σ α
  | done value => pure value
  | fail failure => .fail failure
  | tell event next => .tell event >>= fun _ => next.run backend
  | has entry next => backend.has entry >>= fun answer => (next answer).run backend
  | read entry next => backend.read entry >>= fun answer => (next answer).run backend
  | write entry value next => backend.write entry value >>= fun _ => next.run backend
  | invoke version request next =>
    backend.invoke version request >>= fun answer => (next answer).run backend
  | framework kind folder next =>
    backend.framework kind folder >>= fun answer => (next answer).run backend

end Program

end SolidityBuild
