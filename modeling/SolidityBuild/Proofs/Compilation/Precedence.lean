import SolidityBuild.Proofs.Compilation.Refusals

/-!
What becomes of an answer, told by its document alone. It is asked in a fixed order whether the document is a
report, whether it lists an error, and under which paths it reports the selected contract; the first of these that
is amiss is the failure, and nothing that is done afterwards, neither the analysis nor the making of any part of
the bundle, can fail. The request must be one, and ask for remappings that can be listed.
-/

set_option autoImplicit false

namespace SolidityBuild

open Schema Json

/-! ## Requests as they are spelled -/

/-- The sources of a request have texts for their contents. -/
theorem CompileRequest.exists_sources {document : Table Json} {r : CompileRequest}
    (h : CompileRequest.ofJson (.object document) = .ok r) : ∃ sources, MergedReport.Sources document sources := by
  obtain ⟨t, heq, hread⟩ := model_eq_value (Decoded.toExcept_eq_ok h)
  obtain rfl := Json.object.inj heq
  obtain ⟨g, settings, hg, -, rfl⟩ := Decoded.seq_eq_value hread
  obtain ⟨g', sources, -, hsources, rfl⟩ := Decoded.seq_eq_value hg
  obtain ⟨x, hx, htable⟩ := Field.required_eq_value hsources
  obtain ⟨entries, rfl, hentries⟩ := Decoder.table_eq_value htable
  refine ⟨entries, hx, fun e he => ?_⟩
  obtain ⟨f, -, -, hf⟩ := exists_mem_of_forall₂ hentries.flip he
  obtain ⟨t, ht, hsource⟩ := model_eq_value hf
  obtain ⟨content, hcontent, -⟩ := Decoded.map_eq_value hsource
  obtain ⟨y, hy, htext⟩ := Field.required_eq_value hcontent
  obtain rfl := Decoder.nonEmptyText_eq_value htext
  rw [ht]
  exact ⟨content, hy⟩

/-! ## Reports and selections -/

section Reports

variable {answer : Json} {report : CompileReport} {name : Text}

theorem CompileReport.accept_of_rejected {rejection : Rejection}
    (h : CompileReport.ofJson answer = .error rejection) :
    CompileReport.accept answer = .error (.reportRejected rejection) := by
  rw [accept, h]

theorem CompileReport.accept_of_errors (h : CompileReport.ofJson answer = .ok report)
    (herrors : answer.errorEntries ≠ []) :
    CompileReport.accept answer = .error (.fatalDiagnostics (answer.errorEntries.map shownText)) := by
  have hshown := display_fatal h
  rw [accept, h]
  dsimp only
  cases hfatal : report.fatal with
  | nil =>
    rw [hfatal] at hshown
    exact absurd (List.map_eq_nil_iff.mp hshown.symm) herrors
  | cons d ds =>
    dsimp only
    rw [← hfatal, hshown]

theorem CompileReport.accept_of_clean (h : CompileReport.ofJson answer = .ok report)
    (hclean : answer.errorEntries = []) : CompileReport.accept answer = .ok report := by
  have hshown := display_fatal h
  rw [hclean] at hshown
  rw [accept, h]
  dsimp only
  rw [List.map_eq_nil_iff.mp hshown]

theorem CompileReport.extractOne_of_missing (h : CompileReport.ofJson answer = .ok report)
    (hpaths : answer.definingPaths name = []) : report.extractOne name = .error (.contractMissing name) := by
  have hdefinitions := map_definitions h name
  rw [hpaths] at hdefinitions
  rw [extractOne, List.map_eq_nil_iff.mp hdefinitions]

theorem CompileReport.extractOne_of_single {path : Text} (h : CompileReport.ofJson answer = .ok report)
    (hpaths : answer.definingPaths name = [path]) : ∃ artifact, report.extractOne name = .ok artifact := by
  have hdefinitions := map_definitions h name
  rw [hpaths] at hdefinitions
  obtain ⟨⟨path', contract⟩, hsingle, -⟩ := List.map_eq_singleton_iff.mp hdefinitions
  rw [extractOne, hsingle]
  exact ⟨_, rfl⟩

theorem CompileReport.extractOne_of_several (h : CompileReport.ofJson answer = .ok report)
    (hpaths : 2 ≤ (answer.definingPaths name).length) :
    report.extractOne name = .error (.contractAmbiguous name (answer.definingPaths name)) := by
  have hdefinitions := map_definitions h name
  rw [← hdefinitions] at hpaths ⊢
  rw [extractOne]
  rcases hfound : report.definitions name with _ | ⟨e, _ | ⟨e', rest⟩⟩
  · rw [hfound] at hpaths
    exact absurd hpaths (by decide)
  · rw [hfound] at hpaths
    exact absurd hpaths (Nat.lt_irrefl 1)
  · rfl

end Reports

/-- A document that spells a report. -/
def Json.IsReport (document : Json) : Prop := ∃ report, CompileReport.ofJson document = .ok report

namespace Bundle

/-! ## Verdicts -/

/-- What becomes of an answer: the first thing that is amiss with it, or a bundle. -/
inductive Verdict (answer : Json) (selection : Selection) : Except Failure Bundle → Prop where
  | rejected {rejection : Rejection} (invalid : CompileReport.ofJson answer = .error rejection) :
      Verdict answer selection (.error (.reportRejected rejection))
  | fatal {report : CompileReport} (valid : CompileReport.ofJson answer = .ok report)
      (errors : answer.errorEntries ≠ []) :
      Verdict answer selection (.error (.fatalDiagnostics (answer.errorEntries.map shownText)))
  | missing {report : CompileReport} {name : Text} (valid : CompileReport.ofJson answer = .ok report)
      (clean : answer.errorEntries = []) (selected : selection = .contract name)
      (nowhere : answer.definingPaths name = []) : Verdict answer selection (.error (.contractMissing name))
  | ambiguous {report : CompileReport} {name : Text} (valid : CompileReport.ofJson answer = .ok report)
      (clean : answer.errorEntries = []) (selected : selection = .contract name)
      (several : 2 ≤ (answer.definingPaths name).length) :
      Verdict answer selection (.error (.contractAmbiguous name (answer.definingPaths name)))
  | built {report : CompileReport} {bundle : Bundle} (valid : CompileReport.ofJson answer = .ok report)
      (clean : answer.errorEntries = [])
      (found : ∀ name, selection = .contract name → ∃ path, answer.definingPaths name = [path]) :
      Verdict answer selection (.ok bundle)

namespace Verdict

variable {answer : Json} {selection : Selection} {outcome : Except Failure Bundle}

theorem rejected_iff (h : Verdict answer selection outcome) {rejection : Rejection} :
    outcome = .error (.reportRejected rejection) ↔ CompileReport.ofJson answer = .error rejection := by
  constructor
  · rintro rfl
    cases h with
    | rejected invalid => exact invalid
  · intro hrejected
    cases h with
    | rejected invalid => rw [Except.error.inj (invalid.symm.trans hrejected)]
    | fatal valid | missing valid | ambiguous valid | built valid => exact nomatch valid.symm.trans hrejected

theorem fatal_iff (h : Verdict answer selection outcome) {texts : List Text} :
    outcome = .error (.fatalDiagnostics texts) ↔
      answer.IsReport ∧ answer.errorEntries ≠ [] ∧ texts = answer.errorEntries.map shownText := by
  constructor
  · rintro rfl
    cases h with
    | fatal valid errors => exact ⟨⟨_, valid⟩, errors, rfl⟩
  · rintro ⟨⟨_, hvalid⟩, herrors, rfl⟩
    cases h with
    | rejected invalid => exact nomatch invalid.symm.trans hvalid
    | fatal _ _ => rfl
    | missing _ clean | ambiguous _ clean | built _ clean => exact absurd clean herrors

theorem missing_iff (h : Verdict answer selection outcome) {name : Text} :
    outcome = .error (.contractMissing name) ↔ answer.IsReport ∧ answer.errorEntries = [] ∧
      selection = .contract name ∧ answer.definingPaths name = [] := by
  constructor
  · rintro rfl
    cases h with
    | missing valid clean selected nowhere => exact ⟨⟨_, valid⟩, clean, selected, nowhere⟩
  · rintro ⟨⟨_, hvalid⟩, hclean, rfl, hnowhere⟩
    cases h with
    | rejected invalid => exact nomatch invalid.symm.trans hvalid
    | fatal _ errors => exact absurd hclean errors
    | missing _ _ selected _ => rw [Selection.contract.inj selected]
    | ambiguous _ _ selected several =>
      rw [← Selection.contract.inj selected, hnowhere] at several
      exact absurd several (by decide)
    | built _ _ found =>
      obtain ⟨path, hpath⟩ := found name rfl
      exact nomatch hpath.symm.trans hnowhere

theorem ambiguous_iff (h : Verdict answer selection outcome) {name : Text} {paths : List Text} :
    outcome = .error (.contractAmbiguous name paths) ↔ answer.IsReport ∧ answer.errorEntries = [] ∧
      selection = .contract name ∧ 2 ≤ (answer.definingPaths name).length ∧
      paths = answer.definingPaths name := by
  constructor
  · rintro rfl
    cases h with
    | ambiguous valid clean selected several => exact ⟨⟨_, valid⟩, clean, selected, several, rfl⟩
  · rintro ⟨⟨_, hvalid⟩, hclean, rfl, hseveral, rfl⟩
    cases h with
    | rejected invalid => exact nomatch invalid.symm.trans hvalid
    | fatal _ errors => exact absurd hclean errors
    | missing _ _ selected nowhere =>
      rw [Selection.contract.inj selected, nowhere] at hseveral
      exact absurd hseveral (by decide)
    | ambiguous _ _ selected _ => rw [Selection.contract.inj selected]
    | built _ _ found =>
      obtain ⟨path, hpath⟩ := found name rfl
      rw [hpath] at hseveral
      exact absurd hseveral (Nat.lt_irrefl 1)

theorem built_iff (h : Verdict answer selection outcome) :
    (∃ bundle, outcome = .ok bundle) ↔ answer.IsReport ∧ answer.errorEntries = [] ∧
      ∀ name, selection = .contract name → ∃ path, answer.definingPaths name = [path] := by
  constructor
  · rintro ⟨bundle, rfl⟩
    cases h with
    | built valid clean found => exact ⟨⟨_, valid⟩, clean, found⟩
  · rintro ⟨⟨_, hvalid⟩, hclean, hfound⟩
    cases h with
    | rejected invalid => exact nomatch invalid.symm.trans hvalid
    | fatal _ errors => exact absurd hclean errors
    | missing _ _ selected nowhere =>
      obtain ⟨path, hpath⟩ := hfound _ selected
      exact nomatch hpath.symm.trans nowhere
    | ambiguous _ _ selected several =>
      obtain ⟨path, hpath⟩ := hfound _ selected
      rw [hpath] at several
      exact absurd several (Nat.lt_irrefl 1)
    | built _ _ _ => exact ⟨_, rfl⟩

end Verdict

/-! ## Answers to requests -/

variable {request : CompileRequest} {document : Table Json}

/-- Remappings that are null or a list of texts are made. -/
theorem exists_remappingsFrom_of_isPlain {j : Json} (h : IsPlain j) : ∃ r, remappingsFrom j = .ok r := by
  refine exists_remappingsFrom ?_
  rcases h with rfl | ⟨ts, rfl⟩
  · exact id
  · exact not_not_intro ⟨ts, rfl⟩

/-- What is made of an answer to a request whose remappings can be listed is a bundle of the accepted report and
the extracted artifacts. -/
theorem outcome_normalize_of_request (hrequest : CompileRequest.ofJson (.object document) = .ok request)
    (hplain : IsPlain (askedRemappings document)) (answer : Json) (version : Text) (selection : Selection)
    (post : Postprocessing) : ∃ make : CompileReport → Artifacts → Bundle,
      (normalize answer (.text version) (.object document) selection post).outcome = (do
        let report ← CompileReport.accept answer
        let artifacts ← report.extract selection
        pure (make report artifacts)) := by
  obtain ⟨sources, hsources⟩ := CompileRequest.exists_sources hrequest
  obtain ⟨remappings, hremappings⟩ := exists_remappingsFrom_of_isPlain hplain
  rw [outcome_normalize_of_sources hsources, hremappings]
  exact ⟨fun report artifacts => ofAccepted report version document sources post artifacts remappings, rfl⟩

/-- Every answer has its verdict. -/
theorem verdict_normalize (hrequest : CompileRequest.ofJson (.object document) = .ok request)
    (hplain : IsPlain (askedRemappings document)) (answer : Json) (version : Text) (selection : Selection)
    (post : Postprocessing) :
    Verdict answer selection (normalize answer (.text version) (.object document) selection post).outcome := by
  obtain ⟨make, hmake⟩ := outcome_normalize_of_request hrequest hplain answer version selection post
  rw [hmake]
  -- the stages in their order: reading the report, its errors, the selection; what follows cannot fail
  cases hread : CompileReport.ofJson answer with
  | error rejection =>
    rw [CompileReport.accept_of_rejected hread]
    exact .rejected hread
  | ok report =>
    by_cases hclean : answer.errorEntries = []
    · rw [CompileReport.accept_of_clean hread hclean]
      cases selection with
      | all => exact .built hread hclean fun name h => nomatch h
      | contract name =>
        dsimp only [CompileReport.extract, bind, Except.bind]
        match hpaths : answer.definingPaths name with
        | [] =>
          rw [CompileReport.extractOne_of_missing hread hpaths]
          exact .missing hread hclean rfl hpaths
        | [path] =>
          obtain ⟨artifact, hartifact⟩ := CompileReport.extractOne_of_single hread hpaths
          rw [hartifact]
          refine .built hread hclean fun name' h => ?_
          cases h
          exact ⟨path, hpaths⟩
        | path :: path' :: paths =>
          have hseveral : 2 ≤ (answer.definingPaths name).length := by
            rw [hpaths]
            exact Nat.le_add_left 2 paths.length
          rw [CompileReport.extractOne_of_several hread hseveral]
          exact .ambiguous hread hclean rfl hseveral
    · rw [CompileReport.accept_of_errors hread hclean]
      exact .fatal hread hclean

/-- **What becomes of an answer, and in which order it is asked.** The answer to a request whose remappings can be
listed is rejected exactly if it is no report; else its errors are fatal, exactly if it lists any, and they are
shown in their order; else the selected contract is missing exactly if no path defines it, or ambiguous exactly
if several do, and then all of them are named in their order; in every other case a bundle is built, whatever the
analyzer and the extractor do. -/
theorem normalize_decides (hrequest : CompileRequest.ofJson (.object document) = .ok request)
    (hplain : IsPlain (askedRemappings document)) (answer : Json) (version : Text) (selection : Selection)
    (post : Postprocessing) :
    let outcome := (normalize answer (.text version) (.object document) selection post).outcome
    (∀ rejection, outcome = .error (.reportRejected rejection) ↔
      CompileReport.ofJson answer = .error rejection) ∧
    (∀ texts, outcome = .error (.fatalDiagnostics texts) ↔ answer.IsReport ∧ answer.errorEntries ≠ [] ∧
      texts = answer.errorEntries.map shownText) ∧
    (∀ name, outcome = .error (.contractMissing name) ↔ answer.IsReport ∧ answer.errorEntries = [] ∧
      selection = .contract name ∧ answer.definingPaths name = []) ∧
    (∀ name paths, outcome = .error (.contractAmbiguous name paths) ↔ answer.IsReport ∧
      answer.errorEntries = [] ∧ selection = .contract name ∧ 2 ≤ (answer.definingPaths name).length ∧
      paths = answer.definingPaths name) ∧
    ((∃ bundle, outcome = .ok bundle) ↔ answer.IsReport ∧ answer.errorEntries = [] ∧
      ∀ name, selection = .contract name → ∃ path, answer.definingPaths name = [path]) := by
  have hverdict := verdict_normalize hrequest hplain answer version selection post
  exact ⟨fun _ => hverdict.rejected_iff, fun _ => hverdict.fatal_iff, fun _ => hverdict.missing_iff,
    fun _ _ => hverdict.ambiguous_iff, hverdict.built_iff⟩

/-- An answer that reports a warning, an error whose formatted text is empty, and a contract under two paths. -/
def twiceDefined : Json :=
  .object
    [("errors", .list
      [.object [("severity", .text "warning"), ("message", .text "odd")],
        .object [("severity", .text "error"), ("message", .text "bad"), ("formattedMessage", .text "")]]),
    ("contracts", .object
      [("a.sol", .object [("C", .object [])]), ("b.sol", .object [("C", .object [])])])]

/-- The error is what is shown, and not that the contract is ambiguous. -/
theorem normalize_decides_twiceDefined :
    CompileRequest.ofJson (.object [("sources", .object [])]) = .ok ⟨"Solidity", [], [], []⟩ ∧
    IsPlain (askedRemappings [("sources", .object [])]) ∧
    (normalize twiceDefined (.text "0.8.20") (.object [("sources", .object [])]) (.contract "C") {}).outcome =
      .error (.fatalDiagnostics ["bad"]) := by
  have hrequest : CompileRequest.ofJson (.object [("sources", .object [])]) = .ok ⟨"Solidity", [], [], []⟩ := rfl
  have hplain : IsPlain (askedRemappings [("sources", .object [])]) := .inl rfl
  obtain ⟨-, hfatal, -⟩ := normalize_decides hrequest hplain twiceDefined "0.8.20" (.contract "C") {}
  refine ⟨hrequest, hplain, (hfatal ["bad"]).mpr ⟨⟨_, rfl⟩, ?_, ?_⟩⟩
  · exact List.cons_ne_nil _ _
  · rfl

end Bundle

end SolidityBuild
