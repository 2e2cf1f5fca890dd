import SolidityBuild.Proofs.Compilation.Precedence

/-!
The sources of a bundle. They come from two documents: the report says which paths there are first and which number
each of them has, the request says which paths follow, and what is reported as the text of a path counts only where
the request does not know the path.
-/

set_option autoImplicit false

namespace SolidityBuild

open Schema Json

/-- The number that a report document has for a path, if it knows the path and has one. -/
def Json.numberAt (document : Json) (path : Text) : Option Int :=
  ((document.entriesAt "sources").get? path).bind fun entry => (entry.get? "id").bind integer?

theorem CompileReport.bind_id_eq {answer : Json} {report : CompileReport}
    (hread : CompileReport.ofJson answer = .ok report) (path : Text) :
    (report.sources.get? path).bind SourceReport.id = answer.numberAt path := by
  have hfound := CompileReport.rel_sources hread path
  rw [numberAt]
  generalize (answer.entriesAt "sources").get? path = entry, report.sources.get? path = source at hfound ⊢
  cases hfound with
  | none => rfl
  | some hsource => exact (SourceReport.ofEntry hsource).1

namespace Bundle

variable {answer : Json} {report : CompileReport} {document entries : Table Json}

/-! ## The sources that are compiled -/

/-- The sources of a report with the texts of a request. -/
def mergedSources (report : CompileReport) (entries : Table Json) : Table CompiledSource :=
  (MergedReport.putContents (report.sources.mapValues .ofReport) entries).mapValues compiled

/-- The reported paths come first, in their order; the requested ones that are not reported follow in theirs. -/
theorem keys_mergedSources (hread : CompileReport.ofJson answer = .ok report)
    (hrequest : MergedReport.Sources document entries) (hrequested : entries.keys.Nodup) :
    (mergedSources report entries).keys =
      (answer.entriesAt "sources").keys ++ entries.keys.filter fun path => !(answer.entriesAt "sources").has path := by
  have hchanged : (report.sources.mapValues MergedSource.ofReport).ChangedAt _ _ :=
    MergedReport.changedAt_putContents hrequested
  -- every entry gives a content, so no requested path is passed over
  rw [hrequest.filter_eq] at hchanged
  rw [mergedSources, Table.keys_mapValues, hchanged.keys_eq, MergedReport.keys_ofReport hread]
  congr 2
  funext path
  rw [Table.has_congr (MergedReport.keys_ofReport hread)]

theorem nodup_keys_mergedSources (hread : CompileReport.ofJson answer = .ok report)
    (hreported : (answer.entriesAt "sources").keys.Nodup) : (mergedSources report entries).keys.Nodup := by
  rw [mergedSources, Table.keys_mapValues]
  exact MergedReport.nodup_keys_putContents (MergedReport.keys_ofReport hread ▸ hreported) entries

/-- A requested path has the requested text and the reported number. -/
theorem get?_mergedSources_of_requested (hread : CompileReport.ofJson answer = .ok report)
    (hrequested : entries.keys.Nodup) {path content : Text} {entry : Json} (hentry : entries.get? path = some entry)
    (hcontent : entry.get? "content" = some (.text content)) :
    (mergedSources report entries).get? path = some ⟨answer.numberAt path, content⟩ := by
  rw [mergedSources, get?_compiled_of_content _ hrequested hentry hcontent, Table.get?_mapValues,
    ← CompileReport.bind_id_eq hread]
  cases report.sources.get? path <;> rfl

/-- A path that is only reported has the reported text and number. -/
theorem get?_mergedSources_of_reported (hread : CompileReport.ofJson answer = .ok report)
    (hrequested : entries.keys.Nodup) {path : Text} {entry : Json} (hpath : path ∉ entries.keys)
    (hentry : (answer.entriesAt "sources").get? path = some entry) :
    (mergedSources report entries).get? path =
      some ⟨answer.numberAt path, (entry.textAt? "source").getD []⟩ := by
  have hfound := CompileReport.rel_sources hread path
  rw [hentry] at hfound
  generalize hsource : report.sources.get? path = reported at hfound
  cases hfound with
  | @some _ source hsourceRead =>
    obtain ⟨-, htext, -⟩ := SourceReport.ofEntry hsourceRead
    rw [mergedSources, get?_compiled_of_no_entry hrequested hpath hsource, ← CompileReport.bind_id_eq hread, hsource,
      ← htext]
    rfl

/-- A report without errors on a request whose contents are texts is made into a bundle of the merged sources, if its
artifacts and the remappings of the request can be made. -/
theorem outcome_normalize_of_clean (hread : CompileReport.ofJson answer = .ok report)
    (hclean : answer.errorEntries = []) (hrequest : MergedReport.Sources document entries) (version : Text)
    (selection : Selection) (post : Postprocessing) :
    (normalize answer (.text version) (.object document) selection post).outcome = (do
      let artifacts ← report.extract selection
      let remappings ← remappingsFrom (askedRemappings document)
      pure (ofAccepted report version document entries post artifacts remappings)) := by
  rw [outcome_normalize_of_sources hrequest, CompileReport.accept_of_clean hread hclean]
  rfl

/-! ## Merging -/

/-- **The sources of both documents are merged exactly.** A report without errors on a request whose contents are texts
is made into a bundle if its artifacts and the remappings of the request can be; the sources never stand in the way.
The bundle has the reported paths in their order and then the requested ones that are not reported, each once. The
text of a requested path is the requested one, whatever is reported for it; that of any other path is the reported
one, or empty; and the number of every path is the reported one, if there is one. -/
theorem normalize_merges_sources (hread : CompileReport.ofJson answer = .ok report)
    (hclean : answer.errorEntries = []) (hreported : (answer.entriesAt "sources").keys.Nodup)
    (hrequest : MergedReport.Sources document entries) (hrequested : entries.keys.Nodup) (version : Text)
    (selection : Selection) (post : Postprocessing) :
    let outcome := (normalize answer (.text version) (.object document) selection post).outcome
    ((∃ bundle, outcome = .ok bundle) ↔ (∃ artifacts, report.extract selection = .ok artifacts) ∧
      ∃ remappings, remappingsFrom (askedRemappings document) = .ok remappings) ∧
    ∀ bundle, outcome = .ok bundle →
      bundle.sources.keys = (answer.entriesAt "sources").keys ++
        (entries.keys.filter fun path => !(answer.entriesAt "sources").has path) ∧
      bundle.sources.keys.Nodup ∧
      (∀ path entry content, entries.get? path = some entry → entry.get? "content" = some (.text content) →
        bundle.sources.get? path = some ⟨answer.numberAt path, content⟩) ∧
      ∀ path entry, path ∉ entries.keys → (answer.entriesAt "sources").get? path = some entry →
        bundle.sources.get? path = some ⟨answer.numberAt path, (entry.textAt? "source").getD []⟩ := by
  dsimp only
  rw [outcome_normalize_of_clean hread hclean hrequest]
  constructor
  · constructor
    · rintro ⟨bundle, hbundle⟩
      obtain ⟨artifacts, hartifacts, hrest⟩ := bind_eq_ok hbundle
      obtain ⟨remappings, hremappings, -⟩ := bind_eq_ok hrest
      exact ⟨⟨artifacts, hartifacts⟩, remappings, hremappings⟩
    · rintro ⟨⟨artifacts, hartifacts⟩, remappings, hremappings⟩
      rw [hartifacts, hremappings]
      exact ⟨_, rfl⟩
  · intro bundle hbundle
    -- whatever the artifacts and the remappings are, the sources are the merged ones
    obtain ⟨artifacts, -, hrest⟩ := bind_eq_ok hbundle
    obtain ⟨remappings, -, hmade⟩ := bind_eq_ok hrest
    have hsources : bundle.sources = mergedSources report entries := by
      rw [← Except.ok.inj hmade]
      rfl
    rw [hsources]
    exact ⟨keys_mergedSources hread hrequest hrequested, nodup_keys_mergedSources hread hreported,
      fun _ _ _ => get?_mergedSources_of_requested hread hrequested,
      fun _ _ => get?_mergedSources_of_reported hread hrequested⟩

/-- An answer that gives back another text than the one that it was asked about, knows a file that it was not asked
about, and reports one without saying anything of it. -/
def echoing : Json :=
  .object [("sources", .object
    [("b.sol", .object [("id", .int 1), ("source", .text "contract Forged {}")]),
      ("lib.sol", .object [("id", .int 0), ("source", .text "library L {}")]),
      ("gone.sol", .object [("source", .null)])])]

/-- A request of which one file is not reported. -/
def askingTwo : Table Json :=
  [("a.sol", .object [("content", .text "contract A {}")]), ("b.sol", .object [("content", .text "contract B {}")])]

/-- The forged text is not taken over, and the file that is not reported comes last. -/
theorem normalize_merges_sources_echoing : ∃ report bundle,
    CompileReport.ofJson echoing = .ok report ∧ echoing.errorEntries = [] ∧
    (echoing.entriesAt "sources").keys.Nodup ∧ MergedReport.Sources [("sources", .object askingTwo)] askingTwo ∧
    askingTwo.keys.Nodup ∧
    (normalize echoing (.text "0.8.20") (.object [("sources", .object askingTwo)]) .all {}).outcome = .ok bundle ∧
    bundle.sources.keys = ["b.sol", "lib.sol", "gone.sol", "a.sol"] ∧
    bundle.sources.get? "b.sol" = some ⟨some 1, "contract B {}"⟩ ∧
    bundle.sources.get? "lib.sol" = some ⟨some 0, "library L {}"⟩ ∧
    bundle.sources.get? "gone.sol" = some ⟨none, []⟩ ∧
    bundle.sources.get? "a.sol" = some ⟨none, "contract A {}"⟩ := by
  obtain ⟨report, hread⟩ : ∃ report, CompileReport.ofJson echoing = .ok report := ⟨_, rfl⟩
  have hclean : echoing.errorEntries = [] := rfl
  have hreported : (echoing.entriesAt "sources").keys.Nodup := by decide
  have hrequested : askingTwo.keys.Nodup := by decide
  have hrequest : MergedReport.Sources [("sources", .object askingTwo)] askingTwo :=
    ⟨rfl, by
      intro e he
      rcases List.mem_pair.mp he with rfl | rfl
      · exact ⟨_, rfl⟩
      · exact ⟨_, rfl⟩⟩
  obtain ⟨hbuilt, hmerged⟩ :=
    normalize_merges_sources hread hclean hreported hrequest hrequested "0.8.20" .all {}
  obtain ⟨bundle, hbundle⟩ := hbuilt.mpr ⟨⟨_, rfl⟩, _, rfl⟩
  obtain ⟨hkeys, -, hasked, hunasked⟩ := hmerged bundle hbundle
  refine ⟨report, bundle, hread, hclean, hreported, hrequest, hrequested, hbundle, hkeys, ?_⟩
  cases hread
  exact ⟨hasked _ _ _ rfl rfl, hunasked "lib.sol" _ (by decide) rfl, hunasked "gone.sol" _ (by decide) rfl,
    hasked _ _ _ rfl rfl⟩

end Bundle

end SolidityBuild
