import SolidityBuild.Document.CompileReport
import SolidityBuild.Failure

/-!
A report together with the texts of the request that it answers. The compiler does not give the texts
back, so every source of the request lends its content to the report: it takes the place of whatever
text the report has for that path, and a path that the report does not know comes after those it knows.
-/

set_option autoImplicit false

namespace SolidityBuild

/-- A source of a report with its content, which is any value that the request gives for it. -/
structure MergedSource where
  id : Option Int := none
  ast : Option (Table Json) := none
  content : Json := .null

namespace MergedSource

/-- A source as the report has it. -/
def ofReport (s : SourceReport) : MergedSource := ⟨s.id, s.ast, Json.ofText? s.source⟩

/-- The syntax tree as a value; null if there is none. -/
def astJson (s : MergedSource) : Json :=
  match s.ast with
  | some t => .object t
  | none => .null

end MergedSource

/-- A report with the sources of the request merged into its own. -/
structure MergedReport where
  report : CompileReport
  sources : Table MergedSource

namespace MergedReport

/-- The report alone. -/
def ofReport (r : CompileReport) : MergedReport := ⟨r, r.sources.mapValues .ofReport⟩

/-- The table of sources with the content of one path put in. -/
def putContent (sources : Table MergedSource) (path : Text) (content : Json) : Table MergedSource :=
  sources.put path { (Table.get? sources path).getD {} with content }

/-- The table of sources with the contents of the entries put in; an entry that is no object or has no
content changes nothing. -/
def putContents (sources : Table MergedSource) (entries : Table Json) : Table MergedSource :=
  entries.foldl (fun sources (path, entry) =>
    match entry.get? "content" with
    | none => sources
    | some .null => sources
    | some content => putContent sources path content) sources

/-- The value under a key of a document, or null. -/
def field (document : Table Json) (key : Text) : Json := (Table.get? document key).getD .null

/-- The entries of the sources of a request; an empty value of any kind has none. -/
def requestSources (request : Table Json) : Except Failure (Table Json) :=
  match field request "sources" with
  | .object entries => .ok entries
  | j => if j.isEmpty then .ok [] else .error (.unforeseen (.noMember j "items"))

/-- Merges the sources of a request into a report. -/
def merge (r : CompileReport) (request : Table Json) : Except Failure MergedReport :=
  (requestSources request).map fun entries =>
    ⟨r, putContents (r.sources.mapValues .ofReport) entries⟩

end MergedReport

end SolidityBuild
