import SolidityBuild.Compilation.Merged
import SolidityBuild.Event

/-!
What is made of the syntax trees after a compilation: an analyzer gives a view for the bundle and a
tree for an extractor, which derives invariants from it. Either may fail without failing the build: the
failure is told, and the raw trees, or null, take the place of the result.
-/

set_option autoImplicit false

namespace SolidityBuild

/-- What an analyzer makes of the syntax trees. A null tree is none. -/
structure Analysis where
  ast : Json
  tree : Json

/-- Why an analyzer fails. -/
inductive AnalysisFault where
  | treesMissing (paths : List Text)
  | other (message : Text)
deriving DecidableEq, Repr

/-- The message of a failed analysis. -/
def AnalysisFault.message : AnalysisFault → Text
  | treesMissing paths => "Compiler output has no AST for: " ++ Text.join ", " paths
  | other message => message

/-- An analyzer of the syntax trees of a report. -/
abbrev Analyzer := MergedReport → Except AnalysisFault Analysis

/-- An extractor of invariants from a tree; it may fail. -/
abbrev Extractor := Json → Option Json

/-- What follows a compilation. -/
structure Postprocessing where
  analyzer : Option Analyzer := none
  extractor : Option Extractor := none

namespace MergedReport

/-- The syntax trees by path, null where there is none. -/
def rawTrees (m : MergedReport) : Json := .object (m.sources.mapValues MergedSource.astJson)

/-- The paths without a syntax tree. -/
def treeless (m : MergedReport) : List Text :=
  m.sources.filterMap fun (path, source) => if source.ast.isNone then some path else none

/-- The order of sources by number, those without number last; then by path. -/
def sourceLe (a b : Text × MergedSource) : Bool :=
  match a.2.id, b.2.id with
  | some m, some n => if m = n then Text.le a.1 b.1 else m < n
  | some _, none => true
  | none, some _ => false
  | none, none => Text.le a.1 b.1

/-- The sources in that order. -/
def orderedSources (m : MergedReport) : Table MergedSource := m.sources.mergeSort sourceLe

/-- The analyzer that a build uses unless told otherwise: the syntax trees by path, and as a list in the
order of the sources' numbers. Every source must have one. -/
def analyze : Analyzer := fun m =>
  match m.treeless with
  | [] => .ok ⟨m.rawTrees, .list (m.orderedSources.map fun s => s.2.astJson)⟩
  | paths => .error (.treesMissing (paths.mergeSort Text.le))

end MergedReport

namespace Postprocessing

/-- What a build does unless told otherwise. -/
def default : Postprocessing := ⟨some MergedReport.analyze, none⟩

/-- The analysis of a report, and what is told of it. -/
def analysis (p : Postprocessing) (m : MergedReport) : List Event × Analysis :=
  match p.analyzer with
  | none => ([], ⟨m.rawTrees, .null⟩)
  | some analyzer =>
    match analyzer m with
    | .ok analysis => ([⟨.info, "ast_analyzed", []⟩], analysis)
    | .error _ => ([⟨.warning, "ast_analysis_failed", []⟩], ⟨m.rawTrees, .null⟩)

/-- The invariants of a tree, and what is told of them. -/
def invariants (p : Postprocessing) (tree : Json) : List Event × Json :=
  match tree, p.extractor with
  | .null, _ => ([], .null)
  | _, none => ([], .null)
  | tree, some extractor =>
    match extractor tree with
    | some value => ([], value)
    | none => ([⟨.warning, "invariant_extraction_failed", []⟩], .null)

end Postprocessing

end SolidityBuild
