import SolidityBuild.Proofs.Build.Yields
import SolidityBuild.Proofs.CommandLine.Rebuild

/-!
What a command that builds a project prints and leaves behind. It ends with code zero once it has delivered all of its
bundles, in a text that is read back as the list of their documents; and otherwise with code one, after an error
message, and then it has printed nothing else and has changed nothing but the cache.
-/

set_option autoImplicit false

namespace SolidityBuild

open Json

namespace CommandLine

variable {w w' built : Workshop} {a : BuildArguments} {path cache : Path} {settings : ProjectConfig} {ended : Exit}
  {bundles : List Bundle}

/-! ## The text of the results -/

section Text

variable (hbundles : ∀ b ∈ bundles, b.Holds Text.PairFree)

include hbundles

theorem wellFormed_results : WellFormed Text.PairFree (.list (bundles.map Bundle.toJson)) := by
  refine .list fun x hx => ?_
  obtain ⟨b, hb, rfl⟩ := List.mem_map.mp hx
  exact Bundle.wellFormed_toJson Text.usual_pairFree (hbundles b hb)

/-- **The text of bundles is read back** as the list of their documents. -/
theorem parse_resultText : parse (resultText bundles) = .ok (.list (bundles.map Bundle.toJson)) := by
  have hblank : Blank "\n" := List.forall_mem_singleton.mpr rfl
  exact parse_print_append Layout.standard_indented ((wellFormed_results hbundles).mono fun _ ht _ => ht) hblank

theorem visible_resultText : ∀ c ∈ resultText bundles, c.Visible ∨ c = 10 :=
  List.forall_mem_append.mpr ⟨Layout.within_indented.printAt (wellFormed_results hbundles) 0,
    List.forall_mem_singleton.mpr (.inr rfl)⟩

/-- In a file, it is read as it was written: it consists of visible characters and line feeds. -/
theorem readText_resultText {files files' : Files} (hfiles : files.WellFormed) {output : Path}
    (hwrite : files.write output ((resultText bundles).flatMap Text.octetsOf) = .ok files') :
    files'.readText output = .ok (resultText bundles) := by
  have hscalar : (resultText bundles).Scalar := by
    refine Text.scalar_of_ascii fun c hc => ?_
    rcases visible_resultText hbundles c hc with hvisible | rfl
    · exact hvisible.2.trans (by decide)
    · decide
  have hreturn : 13 ∉ resultText bundles := by
    intro hmem
    rcases visible_resultText hbundles 13 hmem with hvisible | hfeed
    · exact absurd hvisible (by decide)
    · exact absurd hfeed (by decide)
  obtain ⟨l, hspot⟩ := hfiles.spot_of_write hwrite
  exact FolderStore.readText_of_spot hscalar hreturn hspot

end Text

/-! ## What is delivered -/

/-- What a build does that a command orders: it changes its cache only, and its bundles have well-formed documents. -/
theorem tended_of_builtWith (hfiles : w.files.WellFormed) (hnames : w.files.Separated) (hbench : w.bench.PrintsScalar)
    (hversion : ∀ version, (order a settings path).version = some version → version.PairFree)
    {outcome : Except Failure (List Bundle)} (h : builtWith w a path settings cache = (built, outcome)) :
    Workshop.Tended ⟨cache⟩ w.files built ∧
      ∀ bundles, outcome = .ok bundles → ∀ b ∈ bundles, b.Holds Text.PairFree := by
  have hyields := BuildOrder.yields_build rfl hfiles hnames hversion
  have hkeeps := hyields.keeps (Workshop.answers_folder ⟨cache⟩ settings.timeLimit w.files) w
    ⟨hfiles, .refl _ _, hbench⟩
  change Workshop.Tended _ _ (builtWith w a path settings cache).1 ∧
    ∀ bundles, (builtWith w a path settings cache).2 = .ok bundles → _ at hkeeps
  rwa [h] at hkeeps

/-- **A command that builds delivers all of its bundles, or prints an error and nothing else.** It ends with code zero
or one. With code zero, the build gave bundles, and the text that is printed, or written to the file that was named
for it while nothing is printed, is read back as the list of their documents, in order. With code one nothing is
printed but an error message, and no file outside of the cache is made or changed, such as the one for the text;
there may only be new folders on the way to the cache. -/
theorem delivers_all_or_error {arguments : List Text} (hparsed : Request.ofArguments arguments = .build a)
    (hfiles : w.files.WellFormed) (hnames : w.files.Separated) (hbench : w.bench.PrintsScalar)
    (hversion : ∀ path settings cache, Finds w a path settings cache →
      ∀ version, (order a settings path).version = some version → version.PairFree)
    (hended : (run arguments).result w = (w', .ok ended)) :
    (ended.code = 0 ∨ ended.code = 1) ∧
    (ended.code = 0 → ∃ path settings cache built bundles, Finds w a path settings cache ∧
      builtWith w a path settings cache = (built, .ok bundles) ∧
      (a.output = none → w' = built ∧ parse ended.stdout = .ok (.list (bundles.map Bundle.toJson))) ∧
      ∀ output, a.output = some output → ended.stdout = [] ∧
        ∃ text, w'.files.readText (.ofText output) = .ok text ∧ parse text = .ok (.list (bundles.map Bundle.toJson))) ∧
    (ended.code = 1 → ended.stdout = [] ∧ (∃ message, ended.stderr = "Error: " ++ message ++ "\n") ∧
      ∀ l, (∀ path settings cache, Finds w a path settings cache → w.files.Outside cache l) →
        w'.files.node? l = w.files.node? l ∨ w.files.node? l = none ∧ w'.files.node? l = some .folder) := by
  rw [result_run arguments hparsed] at hended
  -- with code zero there is no failure, and with code one there is no delivery
  cases ends_of_result hended with
  | refused message =>
    exact ⟨.inr rfl, fun h => (nomatch h), fun _ => ⟨rfl, ⟨message, rfl⟩, fun _ _ => .inl rfl⟩⟩
  | failed found result =>
    obtain ⟨htended, -⟩ := tended_of_builtWith hfiles hnames hbench (hversion _ _ _ found) result
    exact ⟨.inr rfl, fun h => (nomatch h), fun _ => ⟨rfl, ⟨_, rfl⟩, fun l hl =>
      htended.confined.outside (hl _ _ _ found)⟩⟩
  | unwritten found result message =>
    obtain ⟨htended, -⟩ := tended_of_builtWith hfiles hnames hbench (hversion _ _ _ found) result
    exact ⟨.inr rfl, fun h => (nomatch h), fun _ => ⟨rfl, ⟨message, rfl⟩, fun l hl =>
      htended.confined.outside (hl _ _ _ found)⟩⟩
  | printed found result unnamed =>
    obtain ⟨-, hbundles⟩ := tended_of_builtWith hfiles hnames hbench (hversion _ _ _ found) result
    refine ⟨.inl rfl, fun _ => ⟨_, _, _, _, _, found, result, fun _ => ⟨rfl, ?_⟩, fun output named => ?_⟩,
      fun h => (nomatch h)⟩
    · exact parse_resultText (hbundles _ rfl)
    · exact nomatch unnamed.symm.trans named
  | written found result named write told =>
    obtain ⟨htended, hbundles⟩ := tended_of_builtWith hfiles hnames hbench (hversion _ _ _ found) result
    refine ⟨.inl rfl, fun _ => ⟨_, _, _, _, _, found, result, fun unnamed => ?_, fun output named' => ⟨rfl, ?_⟩⟩,
      fun h => (nomatch h)⟩
    · exact nomatch unnamed.symm.trans named
    · cases named.symm.trans named'
      exact ⟨_, readText_resultText (hbundles _ rfl) htended.wellFormed write, parse_resultText (hbundles _ rfl)⟩

/-- The bundle of a folder with one source is read back from what is printed. -/
theorem delivers_all_of_tokenFolder : ∃ (w' : Workshop) (ended : Exit) (bundles : List Bundle),
    Request.ofArguments tokenLine = .build tokenArguments ∧ tokenFolder.WellFormed ∧ tokenFolder.Separated ∧
    reticentBench.PrintsScalar ∧
    (run tokenLine).result ⟨tokenFolder, [], reticentBench⟩ = (w', .ok ended) ∧ ended.code = 0 ∧
    parse ended.stdout = .ok (.list (bundles.map Bundle.toJson)) := by
  obtain ⟨w', bundle, hcompile⟩ := compile_tokenFolder
  have hrun := run_tokenLine rfl rfl sources_tokenFolder rfl hcompile
  have hfiles := ordinary_tokenFolder.toWellFormed
  have hnames : tokenFolder.Separated := by decide
  have hversion : ∀ path settings cache, Finds ⟨tokenFolder, [], reticentBench⟩ tokenArguments path settings cache →
      ∀ version, (order tokenArguments settings path).version = some version → version.PairFree := by
    rintro path settings cache - version ⟨⟩
    exact (Text.scalar_ofString "0.8.20").pairFree
  obtain ⟨-, hdelivered, -⟩ := delivers_all_or_error (w := ⟨tokenFolder, [], reticentBench⟩) ofArguments_tokenLine
    hfiles hnames printsScalar_reticentBench hversion hrun
  obtain ⟨path, settings, cache, built, bundles, -, -, hprinted, -⟩ := hdelivered rfl
  obtain ⟨-, hparse⟩ := hprinted rfl
  exact ⟨w', _, bundles, rfl, hfiles, hnames, printsScalar_reticentBench, hrun, rfl, hparse⟩

end CommandLine

end SolidityBuild
