import SolidityBuild.Build.Compilation
import SolidityBuild.Build.Workshop
import SolidityBuild.Proofs.Cache.Key
import SolidityBuild.Proofs.Document.CompileRequest
import SolidityBuild.Proofs.Json.Reading

/-!
Sessions: any finite sequence of compilations that share one store in memory. Each call brings its own
request, version, selection and postprocessing, and its own compiler, which is any function from versions
and requests to answers or failures; so whatever a compiler remembers from one invocation to the next, its
behaviour in a session is among those quantified over. The store is the one that builds use; what a
session adds to it is the list of invocations that a call makes.
-/

set_option autoImplicit false

namespace SolidityBuild

/-! ## Calls -/

/-- An answer of a compiler: an object as it is read from a text. Octets spell no surrogates, so the text
has none outside its escapes. -/
structure Answer extends LoadedObject where
  scalar : text.Scalar

theorem Answer.wellFormed (a : Answer) : Json.WellFormed Text.PairFree a.json :=
  Json.pairFree_of_parse a.scalar a.loaded

/-- A request as it is read from a text. None of its texts and keys has a surrogate. -/
structure Submission where
  source : LoadedObject
  scalar : ∀ t ∈ source.json.texts, t.Scalar
  request : CompileRequest
  decoded : CompileRequest.ofJson source.json = .ok request

namespace Submission

open Json

/-- The document that is compiled. -/
def document (s : Submission) : Json := .object s.request.document

theorem wellFormed_sent (s : Submission) : WellFormed Text.Scalar s.request.toJson := by
  have hsource : WellFormed Text.Scalar s.source.json := s.source.wellFormed.of_texts s.scalar
  exact CompileRequest.wellFormed_toJson Text.scalar_ofString hsource s.decoded

theorem wellFormed_document (s : Submission) : WellFormed Text.Scalar s.document :=
  CompileRequest.wellFormed_document Text.scalar_ofString s.wellFormed_sent

/-- Every document that is compiled has a key. -/
theorem exists_key (s : Submission) : ∃ k, Cache.key s.document = .ok k :=
  Cache.exists_key s.wellFormed_document

end Submission

/-- How a compiler answers a version and a request. -/
abbrev CompilerModel := Text → Json → Except Failure Answer

/-- One compilation with everything that it depends on. -/
structure Call where
  submission : Submission
  version : Text
  selection : Selection
  post : Postprocessing
  compiler : CompilerModel

/-- One invocation of a compiler: what it was given, and how it ended. -/
structure Invocation where
  version : Text
  request : Json
  outcome : Except Failure Answer

namespace Call

/-- The document that is compiled. -/
def document (c : Call) : Json := .object c.submission.request.document

/-- The key of the document. -/
def key (c : Call) : Except Text.SurrogateFault Text := Cache.key c.document

/-- What the call makes of an answer. -/
def bundle (c : Call) (answer : Json) : Except Failure Bundle :=
  (Bundle.normalize answer (.text c.version) c.document c.selection c.post).outcome

end Call

/-! ## Running calls -/

/-- What a call works on: the workshop, and the invocations that it has made. -/
structure Session where
  workshop : Workshop
  invocations : List Invocation := []

namespace Session

/-- A computation on the workshop. -/
def onWorkshop {α : Type} (task : Task Workshop α) : Task Session α :=
  task.on Session.workshop fun s workshop => { s with workshop }

/-- Invokes a compiler and notes the invocation. -/
def invoke (compiler : CompilerModel) (version : Text) (request : Json) : Task Session Json :=
  .attempt fun s =>
    ({ s with invocations := s.invocations ++ [⟨version, request, compiler version request⟩] },
      (compiler version request).map fun answer => answer.json)

/-- The backend of a call: the store in memory, and a compiler. -/
def backend (compiler : CompilerModel) : Backend Session where
  has := fun entry => onWorkshop (StoreChoice.memory.has entry)
  read := fun entry => onWorkshop (StoreChoice.memory.read entry)
  write := fun entry value => onWorkshop (StoreChoice.memory.write entry (.document value))
  invoke := invoke compiler
  framework := fun kind _ => .fail (.providerMissing kind)

end Session

/-- A call that was run: the workshop before and after it, the invocations that it made, and its outcome. -/
structure CallRecord where
  call : Call
  before : Workshop
  invocations : List Invocation
  after : Workshop
  outcome : Except Failure Bundle

/-- Runs a call. -/
def Call.run (c : Call) (w : Workshop) : CallRecord :=
  let program := c.submission.request.compile c.version c.selection c.post
  let (session, narrated) := (program.run (Session.backend c.compiler)).run ⟨w, []⟩
  ⟨c, w, session.invocations, session.workshop, narrated.outcome⟩

/-- The workshop after a sequence of calls. -/
def Workshop.after (w : Workshop) (calls : List Call) : Workshop :=
  calls.foldl (fun w c => (c.run w).after) w

/-- The records of a sequence of calls. -/
def Workshop.history (w : Workshop) : List Call → List CallRecord
  | [] => []
  | c :: calls => c.run w :: (c.run w).after.history calls

/-- A workshop whose store in memory is empty. -/
def Workshop.emptied (w : Workshop) : Workshop := { w with memory := [] }

/-- The invocations of a sequence of calls, in order. -/
def Workshop.invocations (w : Workshop) (calls : List Call) : List Invocation :=
  (w.history calls).flatMap CallRecord.invocations

end SolidityBuild
