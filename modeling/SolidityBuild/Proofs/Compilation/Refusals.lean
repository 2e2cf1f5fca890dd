import SolidityBuild.Proofs.Compilation.Normalized
import SolidityBuild.Proofs.Document.CompileRequest

/-!
Why an answer is not made into a bundle. An answer to a request is refused if it is no report, if it reports a
fatal diagnostic, or if the selected contract is not found in it; each of these is foreseen. The one thing
besides that can fail is the making of the remappings, as the settings of a request are any object: values that
have no items, and lists that hold something else than texts, are foreseen by nothing.
-/

set_option autoImplicit false

namespace SolidityBuild

open Schema Json

/-! ## The document of a request -/

namespace CompileRequest

theorem sources_document (r : CompileRequest) : MergedReport.Sources r.document r.sentSources :=
  ⟨r.get?_sources_document, fun _ he => get?_content_of_mem he⟩

/-- Augmented settings ask for the remappings that are asked for. -/
theorem askedRemappings_document (r : CompileRequest) :
    Bundle.askedRemappings r.document = Bundle.askedRemappings r.entries := by
  have hkey : ("remappings" : Text) ≠ Settings.selectionKey := by decide
  rw [Bundle.askedRemappings, tableAt_document, Settings.augment, MergedReport.field, Table.get?_put_of_ne hkey]
  rfl

end CompileRequest

namespace Bundle

/-! ## Remappings -/

/-- Values that remappings cannot be made of: truth values, numbers, and lists that hold something else than
texts. -/
def Unlistable : Json → Prop
  | .bool _ => True
  | .int _ => True
  | .float _ => True
  | .list items => ¬ ∃ ts : List Text, items = ts.map .text
  | _ => False

theorem remappingsFrom_of_texts {j : Json} {ts : List Text}
    (h : itemsOf j = .ok (ts.map .text)) : remappingsFrom j = .ok (some ts) := by
  have hread : Decoder.list Decoder.text (.list (ts.map .text)) = .value ts := Decoder.itemsFrom_text 0 ts
  unfold remappingsFrom
  split
  · exact nomatch h
  · rw [h]
    dsimp only [bind, Except.bind]
    rw [hread]
    rfl

/-- Null spells no remappings; what has texts for its items spells them. -/
theorem exists_remappingsFrom {j : Json} (h : ¬ Unlistable j) : ∃ r, remappingsFrom j = .ok r := by
  cases j with
  | null => exact ⟨none, rfl⟩
  | text t =>
    have hitems : itemsOf (.text t) = .ok ((t.map fun c => [c]).map .text) := by
      rw [itemsOf, List.map_map]
      rfl
    exact ⟨_, remappingsFrom_of_texts hitems⟩
  | object entries =>
    have hitems : itemsOf (.object entries) = .ok ((entries.map Prod.fst).map .text) := by
      rw [itemsOf, List.map_map]
      rfl
    exact ⟨_, remappingsFrom_of_texts hitems⟩
  | list items =>
    obtain ⟨ts, rfl⟩ := not_not.mp h
    exact ⟨some ts, remappingsFrom_of_texts rfl⟩
  | bool b => exact absurd trivial h
  | int n => exact absurd trivial h
  | float x => exact absurd trivial h

/-- Nothing foresees remappings that cannot be listed. -/
theorem remappingsFrom_of_unlistable {j : Json} (h : Unlistable j) :
    ∃ defect, remappingsFrom j = .error (.unforeseen defect) := by
  cases j with
  | null => exact h.elim
  | text t => exact h.elim
  | object entries => exact h.elim
  | bool b => exact ⟨.noItems (.bool b), rfl⟩
  | int n => exact ⟨.noItems (.int n), rfl⟩
  | float x => exact ⟨.noItems (.float x), rfl⟩
  | list items =>
    cases hread : Decoder.itemsFrom Decoder.text 0 items with
    | value ts => exact absurd ⟨ts, Decoder.itemsFrom_text_eq_value hread⟩ h
    | faulty faults =>
      have hlist : Decoder.list Decoder.text (.list items) = .faulty faults := hread
      refine ⟨.rejected ⟨documentName, faults.map fun e => { e with path := .key "remappings" :: e.path }⟩, ?_⟩
      simp only [remappingsFrom, itemsOf, bind, Except.bind, hlist]
      rfl

theorem error_remappingsFrom {j : Json} {e : Failure} (h : remappingsFrom j = .error e) :
    Unlistable j ∧ ∃ defect, e = .unforeseen defect := by
  by_cases hlist : Unlistable j
  · obtain ⟨defect, hdefect⟩ := remappingsFrom_of_unlistable hlist
    rw [hdefect] at h
    exact ⟨hlist, defect, (Except.error.inj h).symm⟩
  · obtain ⟨r, hr⟩ := exists_remappingsFrom hlist
    rw [hr] at h
    exact nomatch h

/-! ## Outcomes -/

/-- The bundle of an accepted report on a document with given sources. -/
def ofAccepted (report : CompileReport) (version : Text) (document sources : Table Json) (post : Postprocessing)
    (artifacts : Artifacts) (remappings : Option (List Text)) : Bundle :=
  let merged : MergedReport := ⟨report, MergedReport.putContents (report.sources.mapValues .ofReport) sources⟩
  let analysis := (post.analysis merged).2
  { ast := analysis.ast
    sources := merged.sources.mapValues compiled
    artifacts
    invariants := (post.invariants analysis.tree).2
    provenance := ⟨version, document⟩
    remappings }

variable {document sources : Table Json}

/-- **What is made of an answer**: it must be accepted, the selected contracts must be found, and the remappings
be made; the first of these to fail is the failure of the whole. -/
theorem outcome_normalize_of_sources (h : MergedReport.Sources document sources) (answer : Json) (version : Text)
    (selection : Selection) (post : Postprocessing) :
    (normalize answer (.text version) (.object document) selection post).outcome = (do
      let report ← CompileReport.accept answer
      let artifacts ← report.extract selection
      let remappings ← remappingsFrom (askedRemappings document)
      pure (ofAccepted report version document sources post artifacts remappings)) := by
  rw [outcome_normalize]
  cases CompileReport.accept answer with
  | error failure => rfl
  | ok report =>
    have htextual := MergedReport.textual_putContents (MergedReport.textual_ofReport report) h.texts
    dsimp only [requestEntries, bind, Except.bind]
    rw [MergedReport.merge_eq report h]
    dsimp only
    rw [assemble_eq htextual, remappingsOf_eq]
    rfl

/-- A bundle holds the version and the document that it came from. -/
theorem provenance_eq (h : MergedReport.Sources document sources) {answer : Json} {version : Text}
    {selection : Selection} {post : Postprocessing} {bundle : Bundle}
    (hbundle : (normalize answer (.text version) (.object document) selection post).outcome = .ok bundle) :
    bundle.provenance = ⟨version, document⟩ := by
  rw [outcome_normalize_of_sources h] at hbundle
  obtain ⟨report, -, hreport⟩ := bind_eq_ok hbundle
  obtain ⟨artifacts, -, hartifacts⟩ := bind_eq_ok hreport
  obtain ⟨remappings, -, hremappings⟩ := bind_eq_ok hartifacts
  rw [← Except.ok.inj hremappings]
  rfl

/-- The failures with which an answer is refused. -/
inductive Refusal : Failure → Prop where
  | notReport (rejection : Rejection) : Refusal (.reportRejected rejection)
  | fatal (texts : List Text) : Refusal (.fatalDiagnostics texts)
  | missing (name : Text) : Refusal (.contractMissing name)
  | ambiguous (name : Text) (paths : List Text) : Refusal (.contractAmbiguous name paths)

theorem Refusal.isForeseen {e : Failure} (h : Refusal e) : e.isForeseen = true := by
  cases h <;> rfl

theorem refusal_of_accept {answer : Json} {e : Failure} (h : CompileReport.accept answer = .error e) :
    Refusal e := by
  unfold CompileReport.accept at h
  split at h
  · cases h
    exact .notReport _
  · split at h
    · exact nomatch h
    · cases h
      exact .fatal _

theorem refusal_of_extract {report : CompileReport} {selection : Selection} {e : Failure}
    (h : report.extract selection = .error e) : Refusal e := by
  cases selection with
  | all => exact nomatch h
  | contract name =>
    rw [CompileReport.extract, CompileReport.extractOne] at h
    split at h
    · cases h
      exact .missing name
    · exact nomatch h
    · cases h
      exact .ambiguous name _

/-- An answer to a request is refused, or its remappings are not made. -/
theorem error_normalize (h : MergedReport.Sources document sources) {answer : Json} {version : Text}
    {selection : Selection} {post : Postprocessing} {e : Failure}
    (he : (normalize answer (.text version) (.object document) selection post).outcome = .error e) :
    Refusal e ∨ ∃ report artifacts, CompileReport.accept answer = .ok report ∧
      report.extract selection = .ok artifacts ∧ remappingsFrom (askedRemappings document) = .error e := by
  rw [outcome_normalize_of_sources h] at he
  rcases bind_eq_error he with haccept | ⟨report, haccept, he⟩
  · exact .inl (refusal_of_accept haccept)
  rcases bind_eq_error he with hextract | ⟨artifacts, hextract, he⟩
  · exact .inl (refusal_of_extract hextract)
  rcases bind_eq_error he with hremappings | ⟨remappings, -, he⟩
  · exact .inr ⟨report, artifacts, haccept, hextract, hremappings⟩
  · exact nomatch he

/-- **What nothing foresees**: that an answer is accepted, the selected contracts are found, and the remappings
cannot be listed. -/
theorem outcome_unforeseen_iff (h : MergedReport.Sources document sources) {answer : Json} {version : Text}
    {selection : Selection} {post : Postprocessing} :
    (∃ defect, (normalize answer (.text version) (.object document) selection post).outcome =
        .error (.unforeseen defect)) ↔
      Unlistable (askedRemappings document) ∧ ∃ report artifacts,
        CompileReport.accept answer = .ok report ∧ report.extract selection = .ok artifacts := by
  constructor
  · rintro ⟨defect, he⟩
    rcases error_normalize h he with hrefusal | ⟨report, artifacts, haccept, hextract, hremappings⟩
    · exact nomatch hrefusal
    · exact ⟨(error_remappingsFrom hremappings).1, report, artifacts, haccept, hextract⟩
  · rintro ⟨hlist, report, artifacts, haccept, hextract⟩
    obtain ⟨defect, hdefect⟩ := remappingsFrom_of_unlistable hlist
    refine ⟨defect, ?_⟩
    rw [outcome_normalize_of_sources h, haccept]
    dsimp only [bind, Except.bind]
    rw [hextract, hdefect]

end Bundle

end SolidityBuild
