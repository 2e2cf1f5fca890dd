import SolidityBuild.Build.Program
import SolidityBuild.Cache.Key
import SolidityBuild.Compilation.Normalized
import SolidityBuild.Document.CompileRequest
import SolidityBuild.Settings

/-!
One compilation. The settings of the request are augmented; the request is recorded in the cache under
its key, unless it is there already; the compiler is invoked, on the request as it is recorded, unless
the cache holds an answer; a fresh answer is recorded; and the answer is made into a bundle.
-/

set_option autoImplicit false

namespace SolidityBuild

/-- The document that is compiled: the request with augmented settings. -/
def CompileRequest.document (r : CompileRequest) : Table Json :=
  match r.toJson with
  | .object entries =>
    Table.put entries "settings"
      (.object (Settings.augment (Settings.tableAt entries "settings")))
  | _ => []

/-- What the cache holds for a document: its key, and whether there is an answer. -/
structure CacheState where
  key : Text
  answered : Bool
deriving DecidableEq, Repr

namespace CacheState

/-- Records a document in the cache, and looks whether it is answered. -/
def resolve (document : Json) : Program CacheState :=
  match Cache.key document with
  | .error fault => .fail (.unforeseen (.surrogates fault))
  | .ok key =>
    let look : Program CacheState :=
      .has (Cache.outputEntry key) fun answered =>
        .tell ⟨.debug, "cache_resolved", [("cache_key", .text key), ("has_output", .bool answered)]⟩
          (.done ⟨key, answered⟩)
    .has (Cache.inputEntry key) fun recorded =>
      if recorded then look else .write (Cache.inputEntry key) document look

/-- The answer to a document: the one that the cache holds, or a fresh one, which it then holds. -/
def answer (state : CacheState) (version : Text) : Program Json :=
  if state.answered then
    .tell ⟨.info, "compiler_output_cached", [("cache_key", .text state.key)]⟩
      (.read (Cache.outputEntry state.key) .done)
  else
    .read (Cache.inputEntry state.key) fun request =>
      .invoke version request fun report =>
        .write (Cache.outputEntry state.key) report
          (.tell ⟨.info, "compiled", [("cache_key", .text state.key), ("version", .text version)]⟩
            (.done report))

end CacheState

/-- Compiles a request. -/
def CompileRequest.compile (r : CompileRequest) (version : Text) (selection : Selection)
    (post : Postprocessing) : Program Bundle := do
  let document := r.document
  let state ← CacheState.resolve (.object document)
  let report ← state.answer version
  .ofNarrated (Bundle.normalize report (.text version) (.object document) selection post)

end SolidityBuild
