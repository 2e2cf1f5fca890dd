import SolidityBuild.Artifact.Bundle
import SolidityBuild.Compilation.Analysis
import SolidityBuild.Narrated

/-!
The way from a report to a bundle. The report must be a report and must hold no fatal diagnostic; then
the texts of the request are merged in, the syntax trees are processed, and the parts of the bundle are
put together in a fixed order: sources, artifacts, provenance, remappings. The first part that fails is
the failure of the whole.
-/

set_option autoImplicit false

namespace SolidityBuild

open Schema

/-- A document that was refused where nothing foresees it. -/
def unforeseenRejection {α : Type} : Except Rejection α → Except Failure α
  | .ok a => .ok a
  | .error r => .error (.unforeseen (.rejected r))

namespace CompileReport

/-- The report that a document spells, if it reports no fatal diagnostic. -/
def accept (document : Json) : Except Failure CompileReport :=
  match ofJson document with
  | .error r => .error (.reportRejected r)
  | .ok report =>
    match report.fatal with
    | [] => .ok report
    | fatal => .error (.fatalDiagnostics (fatal.map Diagnostic.display))

/-- What is told of the diagnostics. -/
def diagnosticEvents (r : CompileReport) : List Event :=
  r.diagnostics.map fun d =>
    ⟨.debug, "compiler_diagnostic", [("severity", .text d.severity), ("message", .text d.display)]⟩

end CompileReport

namespace Bundle

/-- A source with its text; an empty value of any kind counts as the empty text. -/
def compiledSource (s : MergedSource) : Except Failure CompiledSource :=
  let content : Json := if s.content.isEmpty then .text [] else s.content
  unforeseenRejection <|
    CompiledSource.ofJson (.object [("id", SourceReport.idJson s.id), ("source", content)])

/-- The sources with their texts. -/
def compiledSources : Table MergedSource → Except Failure (Table CompiledSource)
  | [] => .ok []
  | (path, source) :: rest => do
    let source ← compiledSource source
    let rest ← compiledSources rest
    pure ((path, source) :: rest)

/-- The version and the request as a provenance. -/
def provenanceOf (version : Json) (request : Table Json) : Except Failure Provenance :=
  unforeseenRejection <|
    (Provenance.decoder (.object [("version", version), ("compiler_json", .object request)])).toExcept
      "CompilerArgs"

/-- The items of a value: those of a list, the keys of an object, the code points of a text. -/
def itemsOf : Json → Except Failure (List Json)
  | .list items => .ok items
  | .object entries => .ok (entries.map fun e => .text e.1)
  | .text t => .ok (t.map fun c => .text [c])
  | j => .error (.unforeseen (.noItems j))

/-- The remappings that the settings of a request ask for. -/
def remappingsOf (request : Table Json) : Except Failure (Option (List Text)) :=
  match MergedReport.field request "settings" with
  | .object settings =>
    match MergedReport.field settings "remappings" with
    | .null => .ok none
    | j => do
      let items ← itemsOf j
      let remappings ← unforeseenRejection <|
        ((Decoder.list Decoder.text (.list items)).inside (.key "remappings")).toExcept documentName
      pure (some remappings)
  | _ => .ok none

/-- The bundle of a merged report. -/
def assemble (m : MergedReport) (version : Json) (request : Table Json) (selection : Selection)
    (ast invariants : Json) : Except Failure Bundle := do
  let sources ← compiledSources m.sources
  let artifacts ← m.report.extract selection
  let provenance ← provenanceOf version request
  let remappings ← remappingsOf request
  pure ⟨ast, sources, artifacts, invariants, provenance, remappings⟩

/-- The entries of a request document. -/
def requestEntries : Json → Except Failure (Table Json)
  | .object entries => .ok entries
  | j => .error (.unforeseen (.noMember j "get"))

/-- The bundle of a report on a request. -/
def normalize (report version request : Json) (selection : Selection) (post : Postprocessing) :
    Narrated Bundle := do
  let report ← .ofExcept (CompileReport.accept report)
  .tell report.diagnosticEvents
  let request ← .ofExcept (requestEntries request)
  let merged ← .ofExcept (MergedReport.merge report request)
  let (events, analysis) := post.analysis merged
  .tell events
  let (events, invariants) := post.invariants analysis.tree
  .tell events
  .ofExcept (assemble merged version request selection analysis.ast invariants)

end Bundle

end SolidityBuild
