import SolidityBuild.Compilation.Normalized
import SolidityBuild.Proofs.Compilation.Analysis
import SolidityBuild.Proofs.Compilation.Merged
import SolidityBuild.Proofs.Document.CompileReport
import SolidityBuild.Proofs.Narrated
import SolidityBuild.Proofs.Settings

/-!
What is made of one answer to two documents that are equal up to the order of keys: bundles that are equal
up to the order of keys, or the same failure. Only the sources, and the trees by path, come in an order
that the document decides; artifacts, invariants and remappings are the same to the letter.
-/

set_option autoImplicit false

namespace SolidityBuild

open Schema Json

/-- An accepted report is the one that its document spells. -/
theorem CompileReport.ofJson_of_accept {document : Json} {r : CompileReport}
    (h : CompileReport.accept document = .ok r) : CompileReport.ofJson document = .ok r := by
  unfold CompileReport.accept at h
  cases hread : CompileReport.ofJson document with
  | error rejection =>
    rw [hread] at h
    exact nomatch h
  | ok report =>
    rw [hread] at h
    dsimp only at h
    cases hfatal : report.fatal with
    | nil =>
      rw [hfatal] at h
      cases h
      rfl
    | cons d ds =>
      rw [hfatal] at h
      exact nomatch h

/-- Merging starts from the paths of the report document. -/
theorem MergedReport.keys_ofReport {document : Json} {r : CompileReport} (h : CompileReport.ofJson document = .ok r) :
    (r.sources.mapValues MergedSource.ofReport).keys = (document.entriesAt "sources").keys := by
  rw [Table.keys_mapValues, CompileReport.keys_sources h]

namespace Bundle

/-! ## The parts of a bundle -/

/-- A merged source as it is compiled, where its content is a text or nothing. -/
def compiled (s : MergedSource) : CompiledSource := ⟨s.id, s.content.text?.getD []⟩

theorem compiledSource_eq {s : MergedSource} (h : s.content = .null ∨ ∃ t, s.content = .text t) :
    compiledSource s = .ok (compiled s) := by
  obtain ⟨id, ast, content⟩ := s
  have hid : ∀ t : Text, CompiledSource.ofJson (.object [("id", SourceReport.idJson id), ("source", .text t)]) =
      .ok ⟨id, t⟩ := by
    intro t
    cases id <;> rfl
  rw [compiledSource]
  dsimp only at h ⊢
  rcases h with rfl | ⟨t, rfl⟩
  · rw [if_pos (by rfl), hid]
    rfl
  · by_cases hempty : (Json.text t).isEmpty = true
    · rw [if_pos hempty, hid, List.isEmpty_iff.mp hempty]
      rfl
    · rw [if_neg hempty, hid]
      rfl

theorem compiledSources_eq {sources : Table MergedSource} (h : MergedReport.Textual sources) :
    compiledSources sources = .ok (sources.mapValues compiled) := by
  induction sources with
  | nil => rfl
  | cons e rest ih =>
    obtain ⟨path, source⟩ := e
    have hsource := compiledSource_eq (h (path, source) List.mem_cons_self)
    rw [compiledSources, hsource, ih fun e he => h e (List.mem_cons_of_mem _ he)]
    rfl

/-- Where an entry has a text for its content, that text is compiled, whatever is reported for the path. -/
theorem get?_compiled_of_content (reported : Table MergedSource) {entries : Table Json}
    (hentries : entries.keys.Nodup) {path content : Text} {entry : Json} (hentry : entries.get? path = some entry)
    (hcontent : entry.get? "content" = some (.text content)) :
    ((MergedReport.putContents reported entries).mapValues compiled).get? path =
      some ⟨(reported.get? path).bind MergedSource.id, content⟩ := by
  have hgiven : MergedReport.contentOf? entry = some (.text content) := by rw [MergedReport.contentOf?, hcontent]
  rw [Table.get?_mapValues, MergedReport.get?_putContents hentries, hentry, MergedReport.withEntry, Option.bind_some,
    hgiven]
  cases Table.get? reported path <;> rfl

/-- Where there is no entry, the reported text is compiled, and an empty one where there is none. -/
theorem get?_compiled_of_no_entry {reports : Table SourceReport} {entries : Table Json}
    (hentries : entries.keys.Nodup) {path : Text} {source : SourceReport} (hentry : path ∉ entries.keys)
    (hsource : reports.get? path = some source) :
    ((MergedReport.putContents (reports.mapValues .ofReport) entries).mapValues compiled).get? path =
      some ⟨source.id, source.source.getD []⟩ := by
  rw [Table.get?_mapValues, MergedReport.get?_putContents hentries, Table.get?_eq_none_iff.mpr hentry,
    Table.get?_mapValues, hsource]
  obtain ⟨id, ast, text, extras⟩ := source
  cases text <;> rfl

theorem provenanceOf_eq (version : Text) (request : Table Json) :
    provenanceOf (.text version) request = .ok ⟨version, request⟩ := rfl

/-- A bundle of texts fails where its artifacts or its remappings fail, and nowhere else. -/
theorem assemble_eq {m : MergedReport} (hm : MergedReport.Textual m.sources) (version : Text)
    (request : Table Json) (selection : Selection) (ast invariants : Json) :
    assemble m (.text version) request selection ast invariants = (do
      let artifacts ← m.report.extract selection
      let remappings ← remappingsOf request
      pure ⟨ast, m.sources.mapValues compiled, artifacts, invariants, ⟨version, request⟩, remappings⟩) := by
  rw [assemble, compiledSources_eq hm]
  cases m.report.extract selection with
  | error failure => rfl
  | ok artifacts =>
    rw [provenanceOf_eq]
    rfl

/-- The outcome of normalizing, without what is told on the way. -/
theorem outcome_normalize (report version request : Json) (selection : Selection) (post : Postprocessing) :
    (normalize report version request selection post).outcome = (do
      let report ← CompileReport.accept report
      let request ← requestEntries request
      let merged ← MergedReport.merge report request
      assemble merged version request selection (post.analysis merged).2.ast
        (post.invariants (post.analysis merged).2.tree).2) := by
  unfold normalize
  simp only [Narrated.outcome_bind, Narrated.outcome_ofExcept, Narrated.outcome_tell]
  rfl

/-! ## Remappings -/

/-- The remappings that the settings of a document ask for; null if they ask for none. -/
def askedRemappings (request : Table Json) : Json :=
  MergedReport.field (Settings.tableAt request "settings") "remappings"

/-- Null, or a list of texts. -/
def IsPlain (remappings : Json) : Prop := remappings = .null ∨ ∃ ts : List Text, remappings = .list (ts.map .text)

/-- The remappings that a value spells; null spells none. -/
def remappingsFrom : Json → Except Failure (Option (List Text))
  | .null => .ok none
  | j => do
    let items ← itemsOf j
    let remappings ← unforeseenRejection <|
      ((Decoder.list Decoder.text (.list items)).inside (.key "remappings")).toExcept documentName
    pure (some remappings)

theorem remappingsOf_eq (request : Table Json) :
    remappingsOf request = remappingsFrom (askedRemappings request) := by
  rw [remappingsOf, askedRemappings, Settings.tableAt, MergedReport.field]
  cases Table.get? request "settings" with
  | none => rfl
  | some settings =>
    cases settings with
    | object entries =>
      show (match MergedReport.field entries "remappings" with | .null => _ | j => _) = _
      rfl
    | _ => rfl

theorem field_alike {p : Text → Prop} {s t : Table Json} (h : Alike p (.object s) (.object t)) (k : Text) :
    Alike p (MergedReport.field s k) (MergedReport.field t k) := by
  unfold MergedReport.field
  cases hget : s.get? k with
  | none =>
    rw [h.get?_eq_none hget]
    exact .refl .null
  | some x =>
    obtain ⟨y, hy, hxy⟩ := h.exists_get? hget
    rw [hy]
    exact hxy

/-- What is equal to null or to a list of texts up to the order of keys is equal to it. -/
theorem eq_of_isPlain {x y : Json} (h : Reordered x y) (hy : IsPlain y) : x = y := by
  rcases hy with rfl | ⟨ts, rfl⟩
  · cases h
    rfl
  · cases h with
    | refl => rfl
    | @list xs _ items =>
      have hitems : List.Forall₂ (fun x t => Reordered x (.text t)) xs ts :=
        List.forall₂_map_right_iff.mp items
      have hmap : xs.map id = ts.map Json.text := by
        refine map_eq_map_iff_forall₂.mpr (hitems.imp fun x t hxt => ?_)
        cases hxt
        rfl
      rw [← hmap, List.map_id]

/-! ## Outcomes for documents that are equal up to the order of keys -/

/-- Bundles of which only the order of keys and the version may differ. -/
structure Matches (a b : Bundle) : Prop where
  ast : Reordered a.ast b.ast
  sources : a.sources.Perm b.sources
  artifacts : a.artifacts = b.artifacts
  invariants : a.invariants = b.invariants
  request : Reordered (.object a.provenance.request) (.object b.provenance.request)
  remappings : a.remappings = b.remappings

/-- Outcomes that are the same but for the order of keys, and for the version, which is the second one's
own. -/
inductive OutcomeMatches (version : Text) : Except Failure Bundle → Except Failure Bundle → Prop where
  | built {a b : Bundle} (same : a.Matches b) (own : b.provenance.version = version) :
      OutcomeMatches version (.ok a) (.ok b)
  | failed (failure : Failure) : OutcomeMatches version (.error failure) (.error failure)

variable {p q : Text → Prop} {d d' : Table Json}

/-- Bundles of the same sources in two orders match. -/
theorem assemble_matches {m m' : MergedReport} (hm : MergedReport.Same m m') {ast ast' invariants : Json}
    (hast : Reordered ast ast') (hd : Reordered (.object d) (.object d'))
    (hremappings : remappingsOf d = remappingsOf d') (v v' : Text) (selection : Selection) :
    OutcomeMatches v' (assemble m (.text v) d selection ast invariants)
      (assemble m' (.text v') d' selection ast' invariants) := by
  -- what can fail now is the same on both sides
  rw [assemble_eq hm.textual, assemble_eq hm.textual', hm.report, hremappings]
  cases m'.report.extract selection with
  | error failure => exact .failed failure
  | ok artifacts =>
    cases remappingsOf d' with
    | error failure => exact .failed failure
    | ok remappings => exact .built ⟨hast, hm.perm.map _, rfl, rfl, hd, rfl⟩ rfl

/-- **One answer to two documents that are equal up to the order of keys** is made into bundles that match,
or fails in the same way. -/
theorem normalize_matches {answer : Json} (hanswer : WellFormed q answer)
    (hd : Alike p (.object d) (.object d')) {entries entries' : Table Json}
    (hentries : MergedReport.Sources d entries) (hentries' : MergedReport.Sources d' entries')
    (hplain : IsPlain (askedRemappings d')) (v v' : Text) (selection : Selection)
    (extractor : Option Extractor) :
    OutcomeMatches v'
      (normalize answer (.text v) (.object d) selection ⟨some MergedReport.analyze, extractor⟩).outcome
      (normalize answer (.text v') (.object d') selection ⟨some MergedReport.analyze, extractor⟩).outcome := by
  rw [outcome_normalize, outcome_normalize]
  -- whether the answer is accepted does not depend on the document
  cases haccept : CompileReport.accept answer with
  | error failure => exact .failed failure
  | ok report =>
    have hkeys := CompileReport.nodup_keys_sources hanswer (CompileReport.ofJson_of_accept haccept)
    obtain ⟨m, m', hm, hm', hsame⟩ := MergedReport.merge_same hkeys hd hentries hentries'
    obtain ⟨hast, htree⟩ := MergedReport.analysis_same extractor hsame
    have hasked : Reordered (askedRemappings d) (askedRemappings d') :=
      (field_alike (Settings.tableAt_alike hd "settings") "remappings").reordered
    have hremappings : remappingsOf d = remappingsOf d' := by
      rw [remappingsOf_eq, remappingsOf_eq, eq_of_isPlain hasked hplain]
    dsimp only [requestEntries, bind, Except.bind]
    rw [hm, hm']
    dsimp only
    rw [htree]
    exact assemble_matches hsame hast hd.reordered hremappings v v' selection

end Bundle

end SolidityBuild
