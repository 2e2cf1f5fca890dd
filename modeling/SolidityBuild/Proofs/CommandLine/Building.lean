import SolidityBuild.CommandLine.Run
import SolidityBuild.Proofs.Build.Results
import Mathlib.Tactic.SplitIfs

/-!
Builds that end well. A folder of sources is built to one bundle: what its sources and its remappings are compiled
to. The command finds the folder that its arguments name, reads the settings, works out where the cache is, and
then builds; where one of these fails, it does not end with code zero.
-/

set_option autoImplicit false

namespace SolidityBuild

/-! ## Building a folder -/

namespace BuildOrder

section Folder

variable {σ : Type} (backend : Backend σ) (order : BuildOrder) (files : Files)

theorem result_buildFolder (version : Text) (s : σ) : (order.buildFolder files version).result backend s =
    follow (s, (Project.sources files order.folder).outcome) fun sources s =>
      follow (s, (Project.remappings files order.folder).outcome) fun remappings s =>
        ((folderRequest sources remappings).compile version (order.selection.getD .all) order.post).result
          backend s := by
  rw [buildFolder, Program.result_bind, Program.result_ofNarrated]
  refine follow_congr _ fun sources s => ?_
  rw [Program.result_bind, Program.result_ofNarrated]

/-- **A folder of sources is built** to what its sources and its remappings are compiled to. -/
theorem buildFolder_ok_iff {version : Text} {s s' : σ} {bundle : Bundle} :
    (order.buildFolder files version).result backend s = (s', .ok bundle) ↔ ∃ sources remappings,
      (Project.sources files order.folder).outcome = .ok sources ∧
      (Project.remappings files order.folder).outcome = .ok remappings ∧
      ((folderRequest sources remappings).compile version (order.selection.getD .all) order.post).result
        backend s = (s', .ok bundle) := by
  rw [result_buildFolder, follow_outcome_eq_ok_iff]
  refine exists_congr fun sources => ?_
  rw [follow_outcome_eq_ok_iff, exists_and_left]

/-- The build of a folder of sources gives one bundle. -/
theorem build_ok_iff {version : Text} (hkind : ProjectKind.ofName? order.project = some .folder)
    (hversion : order.version = some version) (hnonempty : version ≠ []) {s s' : σ} {bundles : List Bundle} :
    (order.build files).result backend s = (s', .ok bundles) ↔ ∃ bundle, bundles = [bundle] ∧
      (order.buildFolder files version).result backend s = (s', .ok bundle) := by
  have hbuild : (order.build files).result backend s =
      follow ((order.buildFolder files version).result backend s) fun bundle s => (s, .ok [bundle]) := by
    rw [build, kind, hkind, hversion, Program.result_bind]
    change (Program.tell _ (.done ()) >>= _).result backend s = _
    rw [Program.result_bind, Program.result_tell]
    cases version with
    | nil => exact absurd rfl hnonempty
    | cons c version =>
      change (order.buildFolder files _ >>= _).result backend s = _
      rw [Program.result_bind]
      rfl
  rw [hbuild, follow_eq_ok_iff]
  constructor
  · rintro ⟨s, bundle, hresult, hdone⟩
    cases hdone
    exact ⟨bundle, rfl, hresult⟩
  · rintro ⟨bundle, rfl, hresult⟩
    exact ⟨s', bundle, hresult, rfl⟩

end Folder

end BuildOrder

/-! ## The command -/

/-- The name of the folder of the cache unless another one is set. -/
def cacheName : Text := ({} : ProjectConfig).cacheFolder

namespace CommandLine

variable {w w' built : Workshop} {a : BuildArguments} {folder path cache : Path} {settings : ProjectConfig}
  {exit : Exit} {bundles : List Bundle}

theorem result_run (arguments : List Text) (h : Request.ofArguments arguments = .build a) :
    (run arguments).result = (build a).result := by
  rw [run, h]
  dsimp only
  split_ifs
  · rfl
  · exact Task.result_notable (build a)

theorem resolve_eq_ok_iff {files : Files} {p : Path} :
    resolve files p = .ok folder ↔ files.resolve p = .ok folder := by
  rw [resolve]
  cases files.resolve p with
  | ok path => exact ⟨fun h => congrArg Except.ok (Except.ok.inj h), fun h => congrArg Except.ok (Except.ok.inj h)⟩
  | error fault =>
    refine iff_of_false (fun h => ?_) fun h => nomatch h
    cases fault <;> exact nomatch h

/-- What an argument is worked out to is the folder that it names, or the command fails. -/
theorem folder_eq {files : Files} {argument : Text} (hresolve : resolve files (.ofText argument) = .ok folder)
    {there : Bool} (hfolder : files.isFolder folder = .ok there) :
    CommandLine.folder files argument = .ok (if there then .ok folder else
      .error (.failed ("directory '" ++ folder.text ++ "' does not exist."))) := by
  rw [CommandLine.folder, hresolve]
  change (foresee (files.isFolder folder) >>= _) = _
  rw [hfolder]
  cases there <;> rfl

theorem folder_cases {files : Files} {argument : Text} {found : Except Exit Path}
    (h : CommandLine.folder files argument = .ok found) : ∃ path there,
      resolve files (.ofText argument) = .ok path ∧ files.isFolder path = .ok there ∧
        found = if there then .ok path
          else .error (.failed ("directory '" ++ path.text ++ "' does not exist.")) := by
  cases hresolve : resolve files (.ofText argument) with
  | error failure =>
    rw [CommandLine.folder, hresolve] at h
    exact nomatch h
  | ok path =>
    cases hfolder : files.isFolder path with
    | error fault =>
      rw [CommandLine.folder, hresolve] at h
      change (foresee (files.isFolder path) >>= _) = _ at h
      rw [hfolder] at h
      exact nomatch h
    | ok there =>
      exact ⟨path, there, rfl, hfolder, (Except.ok.inj ((folder_eq hresolve hfolder).symm.trans h)).symm⟩

/-- A folder that is found is what its argument is worked out to. -/
theorem folder_found {files : Files} {argument : Text} (h : CommandLine.folder files argument = .ok (.ok folder)) :
    resolve files (.ofText argument) = .ok folder ∧ files.isFolder folder = .ok true := by
  obtain ⟨path, there, hresolve, hfolder, hfound⟩ := folder_cases h
  cases there with
  | false => exact nomatch hfound
  | true =>
    obtain rfl : folder = path := Except.ok.inj hfound
    exact ⟨hresolve, hfolder⟩

/-- Where there is no folder, the command fails. -/
theorem folder_failed {files : Files} {argument : Text} {failed : Exit}
    (h : CommandLine.folder files argument = .ok (.error failed)) : ∃ message, failed = .failed message := by
  obtain ⟨path, there, -, -, hfound⟩ := folder_cases h
  cases there with
  | false => exact ⟨_, Except.error.inj hfound⟩
  | true => exact nomatch hfound

/-- Where the settings cannot be read, the command fails. -/
theorem config_failed {files : Files} {failed : Exit} (h : config files folder = .ok (.error failed)) :
    ∃ message, failed = .failed message := by
  rw [config] at h
  change (foresee (files.exists? (folder.child ProjectConfig.fileName)) >>= _) = _ at h
  cases hthere : files.exists? (folder.child ProjectConfig.fileName) with
  | error fault =>
    rw [hthere] at h
    cases h
  | ok there =>
    rw [hthere] at h
    cases there with
    | false => cases h
    | true =>
      -- faults that nothing foresees are no result at all
      dsimp only [foresee, bind, Except.bind] at h
      rw [if_pos rfl] at h
      split at h
      · cases h
      · cases h
      · cases h
      · cases h
      · exact ⟨_, (Except.error.inj (Except.ok.inj h)).symm⟩

/-! ## How a command ends -/

/-- What a command finds before it builds: its folder, the settings there, and the folder of its cache. -/
structure Finds (w : Workshop) (a : BuildArguments) (path : Path) (settings : ProjectConfig) (cache : Path) :
    Prop where
  located : CommandLine.folder w.files a.folder = .ok (.ok path)
  configured : config w.files path = .ok (.ok settings)
  stored : cacheFolder w.files a settings path = .ok cache

/-- What the build comes to that a command orders with what it has found. -/
def builtWith (w : Workshop) (a : BuildArguments) (path : Path) (settings : ProjectConfig) (cache : Path) :
    Workshop × Except Failure (List Bundle) :=
  ((order a settings path).build w.files).result (Workshop.backend (.folder ⟨cache⟩) settings.timeLimit) w

/-- How the command ends if the build fails. -/
def ended (failure : Failure) : Except Failure Exit :=
  if failure.isForeseen then .ok (.failed failure.message) else .error failure

/-- A command looks for its folder, then for the settings there, and goes on with both. -/
theorem result_build (a : BuildArguments) (w : Workshop) : (build a).result w =
    follow (w, CommandLine.folder w.files a.folder) fun found w' =>
      match found with
      | .error refused => (w', .ok refused)
      | .ok path => follow (w', config w.files path) fun read w' =>
        match read with
        | .error refused => (w', .ok refused)
        | .ok settings => (buildIn a path settings).result w' := by
  rw [build, Task.result_bind, Task.result_ask, follow_ok, Task.result_bind, Task.result_ofExcept]
  refine follow_congr _ fun found w' => ?_
  cases found with
  | error refused => rfl
  | ok path =>
    dsimp only
    rw [Task.result_bind, Task.result_ofExcept]
    refine follow_congr _ fun read w'' => ?_
    cases read <;> rfl

/-- It works out where its cache is, builds, and delivers what it has built or ends with the failure. -/
theorem result_buildIn (a : BuildArguments) (path : Path) (settings : ProjectConfig) (w : Workshop) :
    (buildIn a path settings).result w = follow (w, cacheFolder w.files a settings path) fun cache w' =>
      match ((order a settings path).build w.files).result
        (Workshop.backend (.folder ⟨cache⟩) settings.timeLimit) w' with
      | (built, .ok bundles) => (deliver a.output bundles).result built
      | (built, .error failure) => (built, CommandLine.ended failure) := by
  rw [buildIn, Task.result_bind, Task.result_ask, follow_ok, Task.result_bind, Task.result_ofExcept]
  refine follow_congr _ fun cache w' => ?_
  dsimp only
  rw [Task.result_bind, Task.result_foreseen, ← Program.result]
  rcases ((order a settings path).build w.files).result (Workshop.backend (.folder ⟨cache⟩) settings.timeLimit) w'
    with ⟨built, failure | bundles⟩
  · dsimp only
    rw [CommandLine.ended]
    split_ifs <;> rfl
  · rfl

/-- Once everything is found, a command builds. -/
theorem result_build_of_finds (found : Finds w a path settings cache) : (build a).result w =
    match builtWith w a path settings cache with
    | (built, .ok bundles) => (deliver a.output bundles).result built
    | (built, .error failure) => (built, CommandLine.ended failure) := by
  rw [result_build, found.located, follow_ok]
  dsimp only
  rw [found.configured, follow_ok]
  dsimp only
  rw [result_buildIn, found.stored, follow_ok]
  rfl

/-- How a command that builds may end, and in which workshop. -/
inductive Ends (w : Workshop) (a : BuildArguments) : Workshop → Exit → Prop where
  | refused (message : Text) : Ends w a w (.failed message)
  | failed {path cache : Path} {settings : ProjectConfig} {built : Workshop} {failure : Failure}
      (found : Finds w a path settings cache) (result : builtWith w a path settings cache = (built, .error failure)) :
      Ends w a built (.failed failure.message)
  | printed {path cache : Path} {settings : ProjectConfig} {built : Workshop} {bundles : List Bundle}
      (found : Finds w a path settings cache) (result : builtWith w a path settings cache = (built, .ok bundles))
      (unnamed : a.output = none) : Ends w a built ⟨0, resultText bundles, []⟩
  | written {path cache : Path} {settings : ProjectConfig} {built : Workshop} {bundles : List Bundle} {output : Text}
      {files : Files} (found : Finds w a path settings cache)
      (result : builtWith w a path settings cache = (built, .ok bundles)) (named : a.output = some output)
      (write : built.files.write (.ofText output) ((resultText bundles).flatMap Text.octetsOf) = .ok files)
      (told : Text) : Ends w a { built with files } ⟨0, [], told⟩
  | unwritten {path cache : Path} {settings : ProjectConfig} {built : Workshop} {bundles : List Bundle}
      (found : Finds w a path settings cache) (result : builtWith w a path settings cache = (built, .ok bundles))
      (message : Text) : Ends w a built (.failed message)

/-- What is delivered is printed or written, or cannot be written. -/
theorem ends_of_deliver (found : Finds w a path settings cache)
    (hbuilt : builtWith w a path settings cache = (built, .ok bundles))
    (h : (deliver a.output bundles).result built = (w', .ok exit)) : Ends w a w' exit := by
  cases houtput : a.output with
  | none =>
    rw [houtput] at h
    cases h
    exact .printed found hbuilt houtput
  | some output =>
    -- only a path that no file can have leaves the command without an end
    rw [houtput, deliver, Task.result_bind, Task.result_ask, follow_ok] at h
    cases hwrite : built.files.write (.ofText output) ((resultText bundles).flatMap Text.octetsOf) with
    | ok files =>
      rw [hwrite] at h
      cases h
      exact .written found hbuilt houtput hwrite _
    | error fault =>
      rw [hwrite] at h
      cases fault with
      | system fault =>
        cases h
        exact .unwritten found hbuilt _
      | nullInPath => exact nomatch congrArg Prod.snd h

/-- **Every end of a command is one of these**, unless it ends without a code. -/
theorem ends_of_result (h : (build a).result w = (w', .ok exit)) : Ends w a w' exit := by
  rw [result_build] at h
  obtain ⟨found, hfound, h⟩ := follow_outcome_eq_ok_iff.mp h
  cases found with
  | error refused =>
    obtain ⟨message, rfl⟩ := folder_failed hfound
    cases h
    exact .refused message
  | ok path =>
    obtain ⟨read, hread, h⟩ := follow_outcome_eq_ok_iff.mp h
    cases read with
    | error refused =>
      obtain ⟨message, rfl⟩ := config_failed hread
      cases h
      exact .refused message
    | ok settings =>
      dsimp only at h
      rw [result_buildIn] at h
      obtain ⟨cache, hcache, h⟩ := follow_outcome_eq_ok_iff.mp h
      have found : Finds w a path settings cache := ⟨hfound, hread, hcache⟩
      rcases hbuilt : builtWith w a path settings cache with ⟨built, failure | bundles⟩
      · rw [← builtWith, hbuilt] at h
        dsimp only at h
        rw [CommandLine.ended] at h
        split_ifs at h
        · cases h
          exact .failed found hbuilt
        · exact nomatch congrArg Prod.snd h
      · rw [← builtWith, hbuilt] at h
        exact ends_of_deliver found hbuilt h

/-- **A build that prints its results** finds its folder, its settings and its cache, and builds bundles. -/
theorem build_succeeds_iff (houtput : a.output = none) :
    ((build a).result w = (w', .ok exit) ∧ exit.code = 0) ↔ ∃ path settings cache bundles,
      Finds w a path settings cache ∧ builtWith w a path settings cache = (w', .ok bundles) ∧
        exit = ⟨0, resultText bundles, []⟩ := by
  constructor
  · rintro ⟨hresult, hcode⟩
    cases ends_of_result hresult with
    | refused | failed | unwritten => exact nomatch hcode
    | printed found result => exact ⟨_, _, _, _, found, result, rfl⟩
    | written _ _ named => exact nomatch houtput.symm.trans named
  · rintro ⟨path, settings, cache, bundles, found, hbuilt, rfl⟩
    refine ⟨?_, rfl⟩
    rw [result_build_of_finds found, hbuilt, houtput]
    rfl

/-- Without a folder named for it, the cache is in the folder of the project. -/
theorem cacheFolder_of_default {files : Files} {settings : ProjectConfig} (hcache : a.cacheFolder = none)
    (hdefault : settings.cacheFolder = cacheName) :
    cacheFolder files a settings folder = .ok (folder.child cacheName) := by
  have hpath : Path.ofText cacheName = ⟨0, [cacheName]⟩ := by decide
  rw [cacheFolder, hcache, hdefault]
  dsimp only
  rw [hpath]
  rfl

/-- Arguments that order the build of a folder of sources by a version of the compiler, with the cache where the
settings have it, and its results printed. -/
structure OrdersFolder (a : BuildArguments) (version : Text) : Prop where
  project : a.project = some ProjectKind.folder.name
  named : a.version = some version
  nonempty : version ≠ []
  cache : a.cacheFolder = none
  output : a.output = none

/-- **A folder of sources is built by the command** if it is there, its settings, sources and remappings can be
read, and they can be compiled; then what they are compiled to is printed. -/
theorem build_folder_succeeds_iff {version : Text} (h : OrdersFolder a version) :
    ((build a).result w = (w', .ok exit) ∧ exit.code = 0) ↔ ∃ path settings cache sources remappings bundle,
      CommandLine.folder w.files a.folder = .ok (.ok path) ∧ config w.files path = .ok (.ok settings) ∧
        cacheFolder w.files a settings path = .ok cache ∧
        (Project.sources w.files path).outcome = .ok sources ∧
        (Project.remappings w.files path).outcome = .ok remappings ∧
        ((BuildOrder.folderRequest sources remappings).compile version
          ((order a settings path).selection.getD .all) (order a settings path).post).result
            (Workshop.backend (.folder ⟨cache⟩) settings.timeLimit) w = (w', .ok bundle) ∧
        exit = ⟨0, resultText [bundle], []⟩ := by
  have hname : ProjectKind.ofName? ProjectKind.folder.name = some .folder := by decide
  have hkind : ∀ settings path, ProjectKind.ofName? (order a settings path).project = some .folder := by
    intro settings path
    rw [order, h.project]
    exact hname
  have hversion : ∀ settings path, (order a settings path).version = some version := by
    intro settings path
    rw [order, h.named]
    rfl
  rw [build_succeeds_iff h.output]
  constructor
  · rintro ⟨path, settings, cache, bundles, found, hprogram, hended⟩
    obtain ⟨bundle, rfl, hbuilt⟩ :=
      (BuildOrder.build_ok_iff _ _ _ (hkind _ _) (hversion _ _) h.nonempty).mp hprogram
    obtain ⟨sources, remappings, hsources, hremappings, hcompile⟩ :=
      (BuildOrder.buildFolder_ok_iff _ _ _).mp hbuilt
    exact ⟨path, settings, cache, sources, remappings, bundle, found.located, found.configured, found.stored, hsources,
      hremappings, hcompile, hended⟩
  · rintro ⟨path, settings, cache, sources, remappings, bundle, hfound, hread, hcache, hsources, hremappings,
      hcompile, hended⟩
    have hbuilt := (BuildOrder.buildFolder_ok_iff _ (order a settings path) w.files).mpr
      ⟨sources, remappings, hsources, hremappings, hcompile⟩
    exact ⟨path, settings, cache, [bundle], ⟨hfound, hread, hcache⟩,
      (BuildOrder.build_ok_iff _ _ _ (hkind _ _) (hversion _ _) h.nonempty).mpr ⟨bundle, rfl, hbuilt⟩, hended⟩

end CommandLine

end SolidityBuild
