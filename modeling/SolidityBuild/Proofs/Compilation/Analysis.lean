import SolidityBuild.Compilation.Analysis
import SolidityBuild.Proofs.Compilation.Merged

/-!
The default analysis and the order of the sources. The sources are put in order by number and path, which
leaves one order for sources with distinct paths; so the list of syntax trees does not depend on the order
in which the sources come, and the trees by path depend on it in the order of their keys only. Where a tree is
missing, the fault does not depend on it either, since it names the paths in order.
-/

set_option autoImplicit false

namespace SolidityBuild

namespace MergedReport

/-! ## The order of sources -/

/-- The strict order of numbers, where no number comes last. -/
def Precedes : Option Int → Option Int → Prop
  | some m, some n => m < n
  | some _, none => True
  | none, _ => False

theorem Precedes.trans {x y z : Option Int} (hxy : Precedes x y) (hyz : Precedes y z) : Precedes x z := by
  cases x with
  | none => exact hxy
  | some l =>
    cases z with
    | none => trivial
    | some n =>
      cases y with
      | none => exact hyz.elim
      | some m => exact Int.lt_trans hxy hyz

theorem precedes_trichotomy (x y : Option Int) : Precedes x y ∨ x = y ∨ Precedes y x := by
  cases x with
  | none =>
    cases y with
    | none => exact .inr (.inl rfl)
    | some n => exact .inr (.inr trivial)
  | some m =>
    cases y with
    | none => exact .inl trivial
    | some n =>
      rw [Option.some.injEq]
      exact Int.lt_trichotomy m n

theorem Precedes.irrefl {x : Option Int} : ¬ Precedes x x := by
  cases x with
  | none => exact id
  | some m => exact Int.lt_irrefl m

/-- Numbers decide, and paths where the numbers are the same. -/
theorem sourceLe_iff {a b : Text × MergedSource} : sourceLe a b = true ↔
    Precedes a.2.id b.2.id ∨ a.2.id = b.2.id ∧ Text.le a.1 b.1 = true := by
  unfold sourceLe
  cases a.2.id with
  | none =>
    cases b.2.id with
    | none => simp only [Precedes, true_and, false_or]
    | some n => simp only [Precedes, reduceCtorEq, false_and, or_false]
  | some m =>
    cases b.2.id with
    | none => simp only [Precedes, true_or]
    | some n =>
      dsimp only [Precedes]
      rw [Option.some.injEq]
      by_cases h : m = n
      · have hlt : ¬ m < n := by omega
        rw [if_pos h]
        simp only [hlt, eq_true h, true_and, false_or]
      · rw [if_neg h]
        simp only [eq_false h, decide_eq_true_eq, false_and, or_false]

theorem sourceLe_total (a b : Text × MergedSource) : (sourceLe a b || sourceLe b a) = true := by
  rw [Bool.or_eq_true, sourceLe_iff, sourceLe_iff]
  rcases precedes_trichotomy a.2.id b.2.id with hab | heq | hba
  · exact .inl (.inl hab)
  · exact (Text.le_total a.1 b.1).imp (fun hle => .inr ⟨heq, hle⟩) fun hle => .inr ⟨heq.symm, hle⟩
  · exact .inr (.inl hba)

theorem sourceLe_trans (a b c : Text × MergedSource) (hab : sourceLe a b = true)
    (hbc : sourceLe b c = true) : sourceLe a c = true := by
  rw [sourceLe_iff] at hab hbc ⊢
  -- where one of the two steps keeps the number, the other one decides
  rcases hab with hab | ⟨heq, hle⟩
  · rcases hbc with hbc | ⟨heq', -⟩
    · exact .inl (hab.trans hbc)
    · exact .inl (heq' ▸ hab)
  · rw [heq]
    exact hbc.imp id fun hbc => ⟨hbc.1, Text.le_trans hle hbc.2⟩

/-- Sources that come before each other have one path. -/
theorem sourceLe_antisymm (a b : Text × MergedSource) (hab : sourceLe a b = true)
    (hba : sourceLe b a = true) : a.1 = b.1 := by
  rw [sourceLe_iff] at hab hba
  rcases hab with hab | ⟨heq, hle⟩
  · rcases hba with hba | ⟨heq, -⟩
    · exact absurd (hab.trans hba) Precedes.irrefl
    · exact absurd (heq ▸ hab) Precedes.irrefl
  · rcases hba with hba | ⟨-, hle'⟩
    · exact absurd (heq ▸ hba) Precedes.irrefl
    · exact Text.le_antisymm hle hle'

/-- A source that comes before another one: its number is smaller, where no number counts as the largest, or the
numbers are the same and its path is smaller. -/
def Before (a b : Text × MergedSource) : Prop :=
  Precedes a.2.id b.2.id ∨ a.2.id = b.2.id ∧ Text.Before a.1 b.1

variable {m m' : MergedReport}

theorem orderedSources_eq (hkeys : m.sources.keys.Nodup) (h : m.sources.Perm m'.sources) :
    m.orderedSources = m'.orderedSources :=
  Table.mergeSort_eq_of_perm sourceLe_trans sourceLe_total sourceLe_antisymm hkeys h

theorem orderedSources_perm (m : MergedReport) : m.orderedSources.Perm m.sources := List.mergeSort_perm _ _

/-- Sources with distinct paths come one before the other. -/
theorem pairwise_before_orderedSources (hkeys : m.sources.keys.Nodup) : m.orderedSources.Pairwise Before := by
  have hsorted : m.orderedSources.Pairwise fun a b => sourceLe a b = true :=
    List.pairwise_mergeSort sourceLe_trans sourceLe_total m.sources
  have hdistinct : m.orderedSources.keys.Nodup := ((orderedSources_perm m).map Prod.fst).nodup_iff.mpr hkeys
  refine hsorted.imp₂ (fun a b hle hne => ?_) (List.pairwise_map.mp hdistinct)
  exact (sourceLe_iff.mp hle).imp id fun hsame => ⟨hsame.1, hsame.2, hne⟩

/-! ## The default analysis -/

theorem rawTrees_reordered (h : m.sources.Perm m'.sources) : Json.Reordered m.rawTrees m'.rawTrees :=
  .object rfl (List.forall₂_same.mpr fun j _ => .refl j) (h.map _)

theorem treeless_perm (h : m.sources.Perm m'.sources) : m.treeless.Perm m'.treeless := h.filterMap _

/-- The paths without a tree are those of the sources that have none. -/
theorem treeless_eq (m : MergedReport) : m.treeless = Table.keys (m.sources.filter fun e => e.2.ast.isNone) := by
  rw [treeless, Table.keys, ← List.filterMap_eq_map, List.filterMap_filter]
  rfl

theorem nodup_treeless (hkeys : m.sources.keys.Nodup) : m.treeless.Nodup := by
  rw [treeless_eq]
  exact hkeys.sublist (List.filter_sublist.map Prod.fst)

theorem mem_treeless_iff (hkeys : m.sources.keys.Nodup) {path : Text} :
    path ∈ m.treeless ↔ ∃ source, m.sources.get? path = some source ∧ source.ast = none := by
  simp only [treeless_eq, Table.keys, List.mem_map, List.mem_filter, Option.isNone_iff_eq_none,
    Table.get?_eq_some_iff hkeys, Prod.exists, exists_and_right, exists_eq_right]

theorem treeless_eq_nil_iff : m.treeless = [] ↔ ∀ e ∈ m.sources, e.2.ast ≠ none := by
  rw [treeless_eq, Table.keys, List.map_eq_nil_iff, List.filter_eq_nil_iff]
  simp only [Option.isNone_iff_eq_none, ne_eq]

/-- The analysis of sources that all have trees. -/
theorem analyze_of_trees (h : ∀ e ∈ m.sources, e.2.ast ≠ none) :
    analyze m = .ok ⟨m.rawTrees, .list (m.orderedSources.map fun e => e.2.astJson)⟩ := by
  rw [analyze, treeless_eq_nil_iff.mpr h]

/-- The fault where some source has no tree. -/
theorem analyze_of_treeless (h : ¬ ∀ e ∈ m.sources, e.2.ast ≠ none) :
    analyze m = .error (.treesMissing (m.treeless.mergeSort Text.le)) := by
  rw [← treeless_eq_nil_iff] at h
  rw [analyze]
  cases hpaths : m.treeless with
  | nil => exact absurd hpaths h
  | cons path paths => rfl

/-- The tree of a source that has one. -/
theorem map_ast_eq {source : MergedSource} (h : source.ast ≠ none) :
    source.ast.map Json.object = some source.astJson := by
  rw [MergedSource.astJson]
  cases hast : source.ast with
  | none => exact absurd hast h
  | some tree => rfl

theorem trees_perm (h : m.sources.Perm m'.sources) :
    (∀ e ∈ m.sources, e.2.ast ≠ none) ↔ ∀ e ∈ m'.sources, e.2.ast ≠ none :=
  forall_congr' fun _ => imp_congr_left h.mem_iff

/-- Analyses of the same sources in two orders: both fail, or both have the trees by path, up to the order
of the paths, and the same list of trees. -/
theorem analysis_same (extractor : Option Extractor) (h : Same m m') :
    Json.Reordered ((⟨some analyze, extractor⟩ : Postprocessing).analysis m).2.ast
        ((⟨some analyze, extractor⟩ : Postprocessing).analysis m').2.ast ∧
      ((⟨some analyze, extractor⟩ : Postprocessing).analysis m).2.tree =
        ((⟨some analyze, extractor⟩ : Postprocessing).analysis m').2.tree := by
  have hraw := rawTrees_reordered h.perm
  unfold Postprocessing.analysis
  dsimp only
  -- that a tree is missing does not depend on the order
  by_cases htrees : ∀ e ∈ m.sources, e.2.ast ≠ none
  · rw [analyze_of_trees htrees, analyze_of_trees ((trees_perm h.perm).mp htrees), orderedSources_eq h.keys h.perm]
    exact ⟨hraw, rfl⟩
  · rw [analyze_of_treeless htrees, analyze_of_treeless fun htrees' => htrees ((trees_perm h.perm).mpr htrees')]
    exact ⟨hraw, rfl⟩

/-! ## One analysis for every order -/

/-- A fault names the paths without a tree, in their order. -/
theorem names_of_fault (hkeys : m.sources.keys.Nodup) {fault : AnalysisFault} (h : analyze m = .error fault) :
    ∃ paths, fault = .treesMissing paths ∧ paths.Pairwise Text.Before ∧
      ∀ path, path ∈ paths ↔ ∃ source, m.sources.get? path = some source ∧ source.ast = none := by
  by_cases htrees : ∀ e ∈ m.sources, e.2.ast ≠ none
  · rw [analyze_of_trees htrees] at h
    exact nomatch h
  · rw [analyze_of_treeless htrees] at h
    refine ⟨_, (Except.error.inj h).symm, Text.pairwise_before_mergeSort (nodup_treeless hkeys), fun path => ?_⟩
    rw [List.mem_mergeSort]
    exact mem_treeless_iff hkeys

/-- An analysis has the trees of all sources, under their paths and in a list. -/
theorem trees_of_analysis (hkeys : m.sources.keys.Nodup) {analysis : Analysis} (h : analyze m = .ok analysis) :
    (∃ trees, analysis.ast = .object trees ∧
      List.Forall₂ (fun e f => e.1 = f.1 ∧ e.2.ast.map Json.object = some f.2) m.sources trees) ∧
    ∃ ordered trees, ordered.Perm m.sources ∧ ordered.Pairwise Before ∧ analysis.tree = .list trees ∧
      List.Forall₂ (fun e tree => e.2.ast.map Json.object = some tree) ordered trees := by
  by_cases htrees : ∀ e ∈ m.sources, e.2.ast ≠ none
  · rw [analyze_of_trees htrees] at h
    obtain rfl := Except.ok.inj h
    constructor
    · refine ⟨_, rfl, List.forall₂_map_right_iff.mpr (List.forall₂_same.mpr fun e he => ?_)⟩
      exact ⟨rfl, map_ast_eq (htrees e he)⟩
    · -- the sorted sources are the witness; having trees does not depend on the order
      refine ⟨m.orderedSources, _, orderedSources_perm m, pairwise_before_orderedSources hkeys, rfl, ?_⟩
      refine List.forall₂_map_right_iff.mpr (List.forall₂_same.mpr fun e he => ?_)
      exact map_ast_eq (htrees e ((orderedSources_perm m).mem_iff.mp he))
  · rw [analyze_of_treeless htrees] at h
    exact nomatch h

/-- The order of the sources changes neither the list of trees nor the fault. -/
theorem map_tree_analyze_eq (hkeys : m.sources.keys.Nodup) (h : m.sources.Perm m'.sources) :
    (analyze m).map Analysis.tree = (analyze m').map Analysis.tree := by
  by_cases htrees : ∀ e ∈ m.sources, e.2.ast ≠ none
  · rw [analyze_of_trees htrees, analyze_of_trees ((trees_perm h).mp htrees), orderedSources_eq hkeys h]
    rfl
  · rw [analyze_of_treeless htrees, analyze_of_treeless fun htrees' => htrees ((trees_perm h).mpr htrees'),
      Text.mergeSort_le_congr (treeless_perm h)]

/-- **The default analysis is canonical.** It succeeds exactly if every source has a tree; else it names the paths
without one, each once and in their order. Its view has the tree of every source under its path, in the order of the
sources; its tree has the tree of every source once, in the order of their numbers and paths; and it does not depend
on the order of the sources. This is so for the sources of any report, with or without those of a request. -/
theorem analyze_canonical (hkeys : m.sources.keys.Nodup) :
    ((∃ analysis, analyze m = .ok analysis) ↔ ∀ e ∈ m.sources, e.2.ast ≠ none) ∧
    (∀ fault, analyze m = .error fault → ∃ paths, fault = .treesMissing paths ∧
      fault.message = "Compiler output has no AST for: " ++ Text.join ", " paths ∧ paths.Pairwise Text.Before ∧
      ∀ path, path ∈ paths ↔ ∃ source, m.sources.get? path = some source ∧ source.ast = none) ∧
    (∀ analysis, analyze m = .ok analysis →
      (∃ trees, analysis.ast = .object trees ∧
        List.Forall₂ (fun e f => e.1 = f.1 ∧ e.2.ast.map Json.object = some f.2) m.sources trees) ∧
      ∃ ordered trees, ordered.Perm m.sources ∧ ordered.Pairwise Before ∧ analysis.tree = .list trees ∧
        List.Forall₂ (fun e tree => e.2.ast.map Json.object = some tree) ordered trees) ∧
    ∀ m' : MergedReport, m.sources.Perm m'.sources →
      (analyze m).map Analysis.tree = (analyze m').map Analysis.tree := by
  refine ⟨⟨?_, fun htrees => ⟨_, analyze_of_trees htrees⟩⟩, fun fault hfault => ?_,
    fun _ => trees_of_analysis hkeys, fun _ => map_tree_analyze_eq hkeys⟩
  · rintro ⟨analysis, hanalysis⟩
    by_contra htrees
    exact nomatch (analyze_of_treeless htrees).symm.trans hanalysis
  · obtain ⟨paths, rfl, hpaths⟩ := names_of_fault hkeys hfault
    exact ⟨paths, rfl, rfl, hpaths⟩

/-- A tree that says of which file it is, and nothing else. -/
def blankTree (path : Text) : Table Json := [("absolutePath", .text path)]

/-- Sources in their order: one with a negative number, two with the number zero, and two without a number. -/
def numberedSources : MergedReport :=
  ⟨⟨[], [], [], []⟩,
    [("c.sol", ⟨some (-3), some (blankTree "c.sol"), .null⟩), ("a.sol", ⟨some 0, some (blankTree "a.sol"), .null⟩),
      ("b.sol", ⟨some 0, some (blankTree "b.sol"), .null⟩), ("y.sol", ⟨none, some (blankTree "y.sol"), .null⟩),
      ("z.sol", ⟨none, some (blankTree "z.sol"), .null⟩)]⟩

/-- In whatever other order these sources come, their trees are listed in this one. -/
theorem analyze_canonical_numberedSources : numberedSources.sources.keys.Nodup ∧
    ∀ m : MergedReport, numberedSources.sources.Perm m.sources → (analyze m).map Analysis.tree =
      .ok (.list [.object (blankTree "c.sol"), .object (blankTree "a.sol"), .object (blankTree "b.sol"),
        .object (blankTree "y.sol"), .object (blankTree "z.sol")]) := by
  have hkeys : numberedSources.sources.keys.Nodup := by decide
  have hordered : numberedSources.orderedSources = numberedSources.sources := List.mergeSort_of_pairwise (by decide)
  obtain ⟨-, -, -, hsame⟩ := analyze_canonical hkeys
  refine ⟨hkeys, fun m hperm => ?_⟩
  rw [← hsame m hperm, analyze_of_trees (treeless_eq_nil_iff.mp rfl), hordered]
  rfl

end MergedReport

end SolidityBuild
