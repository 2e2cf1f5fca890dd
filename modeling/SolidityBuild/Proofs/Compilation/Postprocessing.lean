import SolidityBuild.Proofs.Compilation.Normalized

/-!
How far an analyzer and an extractor reach. Every build gives the same bundle, or fails in the same way, whatever
they do, but for the two fields that they are asked for. For the number of times the extractor is asked, and for
what it is asked about, the way to a bundle is gone once more with collaborators that act on a state, and an
extractor that notes there every tree that it is asked about.
-/

set_option autoImplicit false

namespace SolidityBuild

open Schema Json

/-! ## Syntax trees -/

/-- The syntax tree that a report document has for a path; null if there is none, or no such path. -/
def Json.treeAt (document : Json) (path : Text) : Json :=
  (((document.entriesAt "sources").get? path).bind fun entry => entry.get? "ast").getD .null

namespace MergedReport

/-- The syntax tree that a table of sources has for a path. -/
def treeAt (sources : Table MergedSource) (path : Text) : Json :=
  ((sources.get? path).map MergedSource.astJson).getD .null

/-- A report starts with the trees of its document. -/
theorem treeAt_ofReport {document : Json} {r : CompileReport} (h : CompileReport.ofJson document = .ok r)
    (path : Text) : treeAt (r.sources.mapValues .ofReport) path = document.treeAt path := by
  have hfound := CompileReport.rel_sources h path
  rw [treeAt, Json.treeAt, Table.get?_mapValues]
  generalize (document.entriesAt "sources").get? path = entry, r.sources.get? path = source at hfound ⊢
  cases hfound with
  | none => rfl
  | some hread => exact (SourceReport.ofEntry hread).2.2

theorem treeAt_putContent (sources : Table MergedSource) (path path' : Text) (content : Json) :
    treeAt (putContent sources path' content) path = treeAt sources path := by
  rw [treeAt, treeAt, putContent, Table.get?_put]
  split
  · next h =>
    subst h
    cases Table.get? sources path <;> rfl
  · rfl

/-- Contents leave the trees alone; a path that only the request knows has none. -/
theorem treeAt_putContents (sources : Table MergedSource) (entries : Table Json) (path : Text) :
    treeAt (putContents sources entries) path = treeAt sources path := by
  induction entries generalizing sources with
  | nil => rfl
  | cons e rest ih =>
    obtain ⟨path', entry⟩ := e
    rw [putContents_cons, ih, putEntry]
    cases contentOf? entry with
    | none => rfl
    | some content => exact treeAt_putContent sources path path' content

/-- Sources with distinct paths have their trees entry by entry. -/
theorem mapValues_astJson {sources : Table MergedSource} (hkeys : sources.keys.Nodup) :
    sources.mapValues MergedSource.astJson = sources.keys.map fun path => (path, treeAt sources path) := by
  rw [Table.mapValues, Table.keys, List.map_map]
  refine List.map_congr_left fun e he => ?_
  dsimp only [Function.comp]
  rw [treeAt, Table.get?_of_mem hkeys he]
  rfl

end MergedReport

namespace Bundle

/-- The report that collaborators are asked about, and the entries of the request that was merged into it. -/
def merged (report request : Json) : Except Failure (MergedReport × Table Json) := do
  let report ← CompileReport.accept report
  let request ← requestEntries request
  let merged ← MergedReport.merge report request
  pure (merged, request)

/-- **The raw trees of a merged report**: for every path the tree of the report document, or null. -/
theorem rawTrees_merged {report request : Json} (hkeys : (report.entriesAt "sources").keys.Nodup)
    {m : MergedReport} {entries : Table Json} (h : merged report request = .ok (m, entries)) :
    m.rawTrees = .object (m.sources.keys.map fun path => (path, report.treeAt path)) := by
  obtain ⟨r, haccept, h⟩ := bind_eq_ok h
  obtain ⟨entries', -, h⟩ := bind_eq_ok h
  obtain ⟨m', hmerge, h⟩ := bind_eq_ok h
  cases h
  have hread := CompileReport.ofJson_of_accept haccept
  -- merging starts from the sources of the report, under distinct paths, and puts contents into them
  obtain ⟨contents, hsources⟩ : ∃ contents,
      m.sources = MergedReport.putContents (r.sources.mapValues .ofReport) contents := by
    rw [MergedReport.merge] at hmerge
    cases hrequested : MergedReport.requestSources entries with
    | error e =>
      rw [hrequested] at hmerge
      cases hmerge
    | ok contents =>
      rw [hrequested] at hmerge
      cases hmerge
      exact ⟨contents, rfl⟩
  have hstart : (r.sources.mapValues MergedSource.ofReport).keys.Nodup := MergedReport.keys_ofReport hread ▸ hkeys
  have hnodup : m.sources.keys.Nodup := hsources ▸ MergedReport.nodup_keys_putContents hstart contents
  rw [MergedReport.rawTrees, MergedReport.mapValues_astJson hnodup]
  congr 2
  funext path
  rw [hsources, MergedReport.treeAt_putContents, MergedReport.treeAt_ofReport hread]

end Bundle

/-! ## What the collaborators give -/

/-- A value, unless it is null. -/
def Json.present? : Json → Option Json
  | null => none
  | j => some j

namespace Postprocessing

variable (post : Postprocessing)

/-- What the analyzer returns for a report, if there is one and it returns. -/
def analysis? (m : MergedReport) : Option Analysis := post.analyzer.bind fun analyzer => (analyzer m).toOption

/-- The tree that the analyzer gives; a null tree is none. -/
def tree? (m : MergedReport) : Option Json := (post.analysis? m).bind fun analysis => analysis.tree.present?

/-- What the extractor returns for a tree, if there is one and it returns. -/
def extract? (tree : Json) : Option Json := post.extractor.bind fun extractor => extractor tree

theorem ast_analysis (m : MergedReport) :
    (post.analysis m).2.ast = ((post.analysis? m).map Analysis.ast).getD m.rawTrees := by
  rw [analysis, analysis?]
  cases post.analyzer with
  | none => rfl
  | some analyzer =>
    dsimp only [Option.bind_some]
    cases analyzer m <;> rfl

theorem tree_analysis (m : MergedReport) : (post.analysis m).2.tree.present? = post.tree? m := by
  rw [analysis, tree?, analysis?]
  cases post.analyzer with
  | none => rfl
  | some analyzer =>
    dsimp only [Option.bind_some]
    cases analyzer m <;> rfl

theorem value_invariants (tree : Json) :
    (post.invariants tree).2 = (tree.present?.bind post.extract?).getD .null := by
  cases tree with
  | null => rfl
  | _ =>
    unfold invariants present? extract?
    rw [Option.bind_some]
    cases post.extractor with
    | none => rfl
    | some extractor =>
      dsimp only [Option.bind_some]
      cases extractor _ <;> rfl

end Postprocessing

/-! ## Collaborators that are watched -/

/-- Collaborators that act on a state. -/
structure Collaborators (σ : Type) where
  analyzer : Option (MergedReport → Task σ (Except AnalysisFault Analysis))
  extractor : Option (Json → Task σ (Option Json))

namespace Collaborators

variable {σ : Type} (c : Collaborators σ)

/-- The analysis of a report. -/
def analysis (m : MergedReport) : Task σ Analysis :=
  match c.analyzer with
  | none => pure ⟨m.rawTrees, .null⟩
  | some analyzer => do
    match ← analyzer m with
    | .ok analysis =>
      .tell ⟨.info, "ast_analyzed", []⟩
      pure analysis
    | .error _ =>
      .tell ⟨.warning, "ast_analysis_failed", []⟩
      pure ⟨m.rawTrees, .null⟩

/-- The invariants of a tree. -/
def invariants (tree : Json) : Task σ Json :=
  match tree.present?, c.extractor with
  | some tree, some extractor => do
    match ← extractor tree with
    | some value => pure value
    | none =>
      .tell ⟨.warning, "invariant_extraction_failed", []⟩
      pure .null
  | _, _ => pure .null

/-- The way to a bundle, as `Bundle.normalize` goes it, with collaborators that act on a state. -/
def normalize (report version request : Json) (selection : Selection) : Task σ Bundle := do
  let report ← .ofExcept (CompileReport.accept report)
  .ofNarrated (.tell report.diagnosticEvents)
  let request ← .ofExcept (Bundle.requestEntries request)
  let merged ← .ofExcept (MergedReport.merge report request)
  let analysis ← c.analysis merged
  let invariants ← c.invariants analysis.tree
  .ofExcept (Bundle.assemble merged version request selection analysis.ast invariants)

end Collaborators

namespace Postprocessing

variable (post : Postprocessing)

/-- The same analyzer and extractor, which notes every tree that it is asked about. -/
def noting : Collaborators (List Json) where
  analyzer := post.analyzer.map fun analyzer m => pure (analyzer m)
  extractor := post.extractor.map fun extractor tree => .change fun trees => (trees ++ [tree], extractor tree)

/-- What the extractor is asked about after the analysis of a report: the tree, if it is there to be asked and
there is one. -/
def asked (m : MergedReport) : List Json := (post.extractor.bind fun _ => post.tree? m).toList

theorem run_analysis_noting (m : MergedReport) (trees : List Json) :
    (post.noting.analysis m).run trees = (trees, ⟨(post.analysis m).1, .ok (post.analysis m).2⟩) := by
  rw [Collaborators.analysis, noting, analysis]
  cases post.analyzer with
  | none => rfl
  | some analyzer =>
    dsimp only [Option.map_some]
    rw [Task.run_bind_ok rfl]
    cases analyzer m <;> rfl

theorem run_invariants_noting (m : MergedReport) (trees : List Json) :
    (post.noting.invariants (post.analysis m).2.tree).run trees = (trees ++ post.asked m,
      ⟨(post.invariants (post.analysis m).2.tree).1, .ok (post.invariants (post.analysis m).2.tree).2⟩) := by
  rw [asked, ← tree_analysis, Collaborators.invariants, noting]
  unfold invariants
  generalize (post.analysis m).2.tree = tree
  cases post.extractor with
  | none => cases tree <;> exact Prod.ext (List.append_nil trees).symm rfl
  | some extractor =>
    cases tree with
    | null => exact Prod.ext (List.append_nil trees).symm rfl
    | _ =>
      dsimp only [Json.present?, Option.map_some, Option.bind_some]
      rw [Task.run_bind_ok rfl]
      cases extractor _ <;> rfl

end Postprocessing

namespace Bundle

/-! ## Bundles but for their trees and invariants -/

theorem outcome_normalize_merged (report version request : Json) (selection : Selection) (post : Postprocessing) :
    (normalize report version request selection post).outcome = (do
      let (m, entries) ← merged report request
      assemble m version entries selection (post.analysis m).2.ast
        (post.invariants (post.analysis m).2.tree).2) := by
  rw [outcome_normalize, merged]
  cases CompileReport.accept report with
  | error failure => rfl
  | ok r =>
    cases requestEntries request with
    | error failure => rfl
    | ok entries =>
      dsimp only [bind, Except.bind]
      cases MergedReport.merge r entries <;> rfl

/-- **The noting run** is the plain one, with its events and its outcome, and notes what the extractor is asked
about. -/
theorem run_normalize_noting (report version request : Json) (selection : Selection) (post : Postprocessing)
    (trees : List Json) :
    (post.noting.normalize report version request selection).run trees =
      (match merged report request with
        | .ok (m, _) => trees ++ post.asked m
        | .error _ => trees,
        normalize report version request selection post) := by
  rw [merged, Collaborators.normalize, normalize]
  cases CompileReport.accept report with
  | error failure => rfl
  | ok r =>
    cases requestEntries request with
    | error failure => rfl
    | ok entries =>
      rw [Task.run_bind_ok rfl, Task.run_bind_ok rfl, Task.run_bind_ok rfl]
      cases hmerge : MergedReport.merge r entries with
      | error failure =>
        simp only [bind, Except.bind, hmerge, Narrated.ofExcept, Narrated.tell]
        rfl
      | ok m =>
        rw [Task.run_bind_ok rfl, Task.run_bind_ok (post.run_analysis_noting m trees),
          Task.run_bind_ok (post.run_invariants_noting m trees)]
        simp only [bind, Except.bind, hmerge, Narrated.ofExcept, Narrated.tell]
        rfl

/-- Outcomes that are the same failure, or bundles that differ in their trees and invariants at most. -/
inductive AgreeElsewhere : Except Failure Bundle → Except Failure Bundle → Prop where
  | built {a b : Bundle} (sources : a.sources = b.sources) (artifacts : a.artifacts = b.artifacts)
      (provenance : a.provenance = b.provenance) (remappings : a.remappings = b.remappings) :
      AgreeElsewhere (.ok a) (.ok b)
  | failed (failure : Failure) : AgreeElsewhere (.error failure) (.error failure)

/-- Trees and invariants are put into a bundle that is made without them. -/
theorem assemble_placed (m : MergedReport) (version : Json) (request : Table Json) (selection : Selection)
    (ast invariants : Json) : assemble m version request selection ast invariants =
      (assemble m version request selection .null .null).map fun b => { b with ast, invariants } := by
  rw [assemble, assemble]
  cases compiledSources m.sources with
  | error failure => rfl
  | ok sources =>
    cases m.report.extract selection with
    | error failure => rfl
    | ok artifacts =>
      dsimp only [bind, Except.bind]
      cases provenanceOf version request with
      | error failure => rfl
      | ok provenance =>
        dsimp only
        cases remappingsOf request <;> rfl

theorem assemble_agree (m : MergedReport) (version : Json) (request : Table Json) (selection : Selection)
    (ast invariants ast' invariants' : Json) :
    AgreeElsewhere (assemble m version request selection ast invariants)
      (assemble m version request selection ast' invariants') := by
  rw [assemble_placed m _ _ _ ast, assemble_placed m _ _ _ ast']
  cases assemble m version request selection .null .null with
  | error failure => exact .failed failure
  | ok b => exact .built rfl rfl rfl rfl

theorem keys_compiledSources {sources : Table MergedSource} {compiled : Table CompiledSource}
    (h : compiledSources sources = .ok compiled) : compiled.keys = sources.keys := by
  induction sources generalizing compiled with
  | nil =>
    cases h
    rfl
  | cons e rest ih =>
    obtain ⟨path, source⟩ := e
    rw [compiledSources] at h
    obtain ⟨s, -, h⟩ := bind_eq_ok h
    obtain ⟨tail, htail, h⟩ := bind_eq_ok h
    cases h
    rw [Table.keys, List.map_cons, Table.keys, List.map_cons]
    exact congrArg (path :: ·) (ih htail)

/-- An assembled bundle has the given trees and invariants, and the paths of the merged sources. -/
theorem parts_of_assemble {m : MergedReport} {version : Json} {request : Table Json} {selection : Selection}
    {ast invariants : Json} {b : Bundle} (h : assemble m version request selection ast invariants = .ok b) :
    b.ast = ast ∧ b.invariants = invariants ∧ b.sources.keys = m.sources.keys := by
  obtain ⟨sources, hsources, h⟩ := bind_eq_ok h
  obtain ⟨artifacts, -, h⟩ := bind_eq_ok h
  obtain ⟨provenance, -, h⟩ := bind_eq_ok h
  obtain ⟨remappings, -, h⟩ := bind_eq_ok h
  cases h
  exact ⟨rfl, rfl, keys_compiledSources hsources⟩

/-- **Analyzers and extractors reach their own fields only.** Two builds of one report on one request that differ
in their collaborators fail in the same way or give bundles that agree on everything but trees and invariants. In
every bundle the trees are those that the analyzer returned, else the raw ones for every merged path, and the
invariants are what the extractor returned for the tree that the analyzer gave, else null. And in the run that
notes what the extractor is asked about, and is the plain one but for that, it is asked once at most, about no other
tree than that. -/
theorem postprocessing_reaches_own_fields {report : Json} (hkeys : (report.entriesAt "sources").keys.Nodup)
    (version request : Json) (selection : Selection) (post post' : Postprocessing) :
    AgreeElsewhere (normalize report version request selection post).outcome
      (normalize report version request selection post').outcome ∧
    (∀ bundle, (normalize report version request selection post).outcome = .ok bundle →
      ∃ m entries, merged report request = .ok (m, entries) ∧ bundle.sources.keys = m.sources.keys ∧
        bundle.ast = ((post.analysis? m).map Analysis.ast).getD
          (.object (m.sources.keys.map fun path => (path, report.treeAt path))) ∧
        bundle.invariants = ((post.tree? m).bind post.extract?).getD .null) ∧
    ∃ trees, (post.noting.normalize report version request selection).run [] =
        (trees, normalize report version request selection post) ∧
      trees.length ≤ 1 ∧
      ∀ tree ∈ trees, ∃ m entries, merged report request = .ok (m, entries) ∧ post.tree? m = some tree := by
  refine ⟨?_, fun bundle hbundle => ?_, ?_⟩
  · rw [outcome_normalize_merged, outcome_normalize_merged]
    cases merged report request with
    | error failure => exact .failed failure
    | ok prepared => exact assemble_agree _ _ _ _ _ _ _ _
  · rw [outcome_normalize_merged] at hbundle
    obtain ⟨⟨m, entries⟩, hmerged, hassembled⟩ := bind_eq_ok hbundle
    obtain ⟨hast, hinvariants, hpaths⟩ := parts_of_assemble hassembled
    refine ⟨m, entries, hmerged, hpaths, ?_, ?_⟩
    · rw [hast, post.ast_analysis, rawTrees_merged hkeys hmerged]
    · rw [hinvariants, post.value_invariants, post.tree_analysis]
  · refine ⟨_, run_normalize_noting report version request selection post [], ?_⟩
    cases merged report request with
    | error failure => exact ⟨Nat.zero_le 1, fun tree htree => absurd htree List.not_mem_nil⟩
    | ok prepared =>
      obtain ⟨m, entries⟩ := prepared
      dsimp only
      rw [List.nil_append, Postprocessing.asked]
      refine ⟨Option.length_toList_le, fun tree htree => ⟨m, entries, rfl, ?_⟩⟩
      obtain ⟨extractor, -, hgiven⟩ := Option.bind_eq_some_iff.mp (Option.mem_toList.mp htree)
      exact hgiven

/-- A report of one source, with its tree. -/
def oneTree : Json :=
  .object [("sources", .object [("a.sol", .object [("id", .int 0), ("ast", .object [("nodeType", .text "SourceUnit")])])])]

/-- A request with another source besides. -/
def twoSources : Json :=
  .object [("sources", .object
    [("b.sol", .object [("content", .text "library B;")]), ("a.sol", .object [("content", .text "library A;")])])]

/-- An analyzer and an extractor that hand on what they get. -/
def handing : Postprocessing := ⟨some fun _ => .ok ⟨.text "view", .text "tree"⟩, some some⟩

/-- With collaborators that return and without any: only trees and invariants differ, and the source that is not
reported has a null tree. -/
theorem postprocessing_of_oneTree :
    (oneTree.entriesAt "sources").keys.Nodup ∧
    ∃ a b, (normalize oneTree (.text "0.8.20") twoSources .all handing).outcome = .ok a ∧
      (normalize oneTree (.text "0.8.20") twoSources .all {}).outcome = .ok b ∧
      a.ast = .text "view" ∧ a.invariants = .text "tree" ∧ b.invariants = .null ∧
      b.ast = .object [("a.sol", .object [("nodeType", .text "SourceUnit")]), ("b.sol", .null)] ∧
      a.sources = b.sources := by
  have hkeys : (oneTree.entriesAt "sources").keys.Nodup := List.nodup_singleton _
  obtain ⟨hagree, hparts, -⟩ :=
    postprocessing_reaches_own_fields hkeys (.text "0.8.20") twoSources .all handing {}
  obtain ⟨-, hparts', -⟩ := postprocessing_reaches_own_fields hkeys (.text "0.8.20") twoSources .all {} handing
  obtain ⟨m, entries, hmerged, -, hast, hinvariants⟩ := hparts _ rfl
  obtain ⟨m', entries', hmerged', -, hast', hinvariants'⟩ := hparts' _ rfl
  cases hmerged
  cases hmerged'
  refine ⟨hkeys, _, _, rfl, rfl, hast, hinvariants, hinvariants', hast', ?_⟩
  cases hagree with
  | built sources => exact sources

end Bundle

end SolidityBuild
