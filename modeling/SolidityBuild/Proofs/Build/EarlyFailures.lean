import SolidityBuild.Proofs.Build.Late
import SolidityBuild.Proofs.Build.Records
import SolidityBuild.Proofs.CommandLine.Building
import SolidityBuild.Proofs.Project.Unreadable

/-!
Builds that fail before anything is compiled leave no trace. A build finds out what kind of project it is for, then
whether a version is asked for, then what the sources are; or it runs a framework and looks whether that succeeded.
Until then it makes no request to the cache or the compiler, and from then on no failure is one of those before.
-/

set_option autoImplicit false

namespace SolidityBuild

namespace BuildOrder

variable {σ : Type} {backend : Backend σ} {order : BuildOrder} {files : Files} {s : σ}

/-! ## How a build goes -/

/-- What is left of the build of a folder once its sources and remappings are gathered. -/
def compileGathered (order : BuildOrder) (version : Text) (sources : Table SourceText) (remappings : List Text) :
    Program (List Bundle) := do
  let bundle ← (folderRequest sources remappings).compile version (order.selection.getD .all) order.post
  pure [bundle]

/-- The framework of a project of the given kind was run, and this is what came of it. -/
structure Ran (backend : Backend σ) (order : BuildOrder) (files : Files) (s : σ) (kind : ProjectKind)
    (r : σ × Except Failure FrameworkOutcome) : Prop where
  found : (order.kind files).result backend s = (s, .ok kind)
  framework : kind ≠ .folder
  provider : kind ∈ order.providers
  run : (backend.framework kind order.folder).result s = r

/-- How a build goes: it fails before anything is compiled, or it goes on as its compilations do. -/
inductive Goes (backend : Backend σ) (order : BuildOrder) (files : Files) (s : σ) : Conduct σ (List Bundle) → Prop where
  | unknown {failure : Failure} (found : (order.kind files).result backend s = (s, .error failure)) :
      Goes backend order files s ⟨s, [], .error failure⟩
  | unversioned (found : (order.kind files).result backend s = (s, .ok .folder))
      (missing : order.version = none ∨ order.version = some []) :
      Goes backend order files s ⟨s, [], .error .versionMissing⟩
  | ungathered {version : Text} {failure : Failure} (found : (order.kind files).result backend s = (s, .ok .folder))
      (named : order.version = some version) (nonempty : version ≠ [])
      (fails : Project.gathered files order.folder = .error failure) :
      Goes backend order files s ⟨s, [], .error failure⟩
  | gathered {version : Text} {sources : Table SourceText} {remappings : List Text}
      (found : (order.kind files).result backend s = (s, .ok .folder)) (named : order.version = some version)
      (nonempty : version ≠ []) (gathered : Project.gathered files order.folder = .ok (sources, remappings)) :
      Goes backend order files s ((order.compileGathered version sources remappings).conduct backend s)
  | unprovided {kind : ProjectKind} (found : (order.kind files).result backend s = (s, .ok kind))
      (framework : kind ≠ .folder) (missing : kind ∉ order.providers) :
      Goes backend order files s ⟨s, [], .error (.providerMissing kind)⟩
  | broken {kind : ProjectKind} {s' : σ} {failure : Failure}
      (ran : Ran backend order files s kind (s', .error failure)) :
      Goes backend order files s ⟨s', [], .error failure⟩
  | complained {kind : ProjectKind} {s' : σ} {outcome : FrameworkOutcome}
      (ran : Ran backend order files s kind (s', .ok outcome)) (fails : outcome.success ≠ true) :
      Goes backend order files s ⟨s', [], .error (.frameworkFailed outcome.complaint)⟩
  | recorded {kind : ProjectKind} {s' : σ} {outcome : FrameworkOutcome}
      (ran : Ran backend order files s kind (s', .ok outcome)) (succeeds : outcome.success = true) :
      Goes backend order files s ((compileRecords order.post outcome.records).conduct backend s')

variable {kind : ProjectKind} {s' : σ}

/-- A folder of sources is compiled once its sources and remappings are gathered. -/
theorem conduct_buildFolder (backend : Backend σ) (order : BuildOrder) (files : Files) (version : Text) (s : σ) :
    (order.buildFolder files version).conduct backend s =
      match Project.gathered files order.folder with
      | .error failure => ⟨s, [], .error failure⟩
      | .ok (sources, remappings) => ((folderRequest sources remappings).compile version
          (order.selection.getD .all) order.post).conduct backend s := by
  rw [buildFolder, Project.gathered]
  have hsources := Program.conduct_ofNarrated backend (Project.sources files order.folder) s
  have hremappings := Program.conduct_ofNarrated backend (Project.remappings files order.folder) s
  cases hs : (Project.sources files order.folder).outcome with
  | error failure =>
    rw [hs] at hsources
    exact Program.conduct_bind_error backend hsources _
  | ok sources =>
    rw [hs] at hsources
    rw [Program.conduct_bind_quiet backend hsources]
    cases hr : (Project.remappings files order.folder).outcome with
    | error failure =>
      rw [hr] at hremappings
      exact Program.conduct_bind_error backend hremappings _
    | ok remappings =>
      rw [hr] at hremappings
      rw [Program.conduct_bind_quiet backend hremappings]
      rfl

/-- A framework that fails, or complains, ends a build. -/
theorem conduct_buildRecorded_failed {failure : Failure}
    (hrun : (backend.framework kind order.folder).result s = (s', .error failure)) :
    (order.buildRecorded kind).conduct backend s = ⟨s', [], .error failure⟩ :=
  Program.conduct_framework_error backend hrun _

theorem conduct_buildRecorded_complained {outcome : FrameworkOutcome}
    (hrun : (backend.framework kind order.folder).result s = (s', .ok outcome)) (hfails : outcome.success ≠ true) :
    (order.buildRecorded kind).conduct backend s = ⟨s', [], .error (.frameworkFailed outcome.complaint)⟩ := by
  rw [buildRecorded, Program.conduct_framework_ok backend hrun, if_neg hfails]
  rfl

/-- **Every build goes in one of these ways.** -/
theorem goes_build (backend : Backend σ) (order : BuildOrder) (files : Files) (s : σ) :
    Goes backend order files s ((order.build files).conduct backend s) := by
  obtain ⟨outcome, hkind⟩ := conduct_kind backend order files s
  have hfound : (order.kind files).result backend s = (s, outcome) := by
    rw [Program.result_eq_conduct, hkind]
  cases outcome with
  | error failure =>
    rw [build, Program.conduct_bind_error backend hkind]
    exact .unknown hfound
  | ok kind =>
    by_cases hfolder : kind = .folder
    · subst hfolder
      rw [build, Program.conduct_bind_quiet backend hkind, if_pos rfl,
        Program.conduct_bind_quiet backend (Program.conduct_told backend _ s)]
      rcases hversion : order.version with _ | (_ | ⟨c, version⟩)
      · exact .unversioned hfound (.inl hversion)
      · exact .unversioned hfound (.inr hversion)
      · dsimp only
        have hbuild := conduct_buildFolder backend order files (c :: version) s
        cases hgathered : Project.gathered files order.folder with
        | error failure =>
          rw [hgathered] at hbuild
          rw [Program.conduct_bind_error backend hbuild]
          exact .ungathered hfound hversion (List.cons_ne_nil _ _) hgathered
        | ok all =>
          rw [hgathered] at hbuild
          rw [Program.conduct_bind_congr backend hbuild]
          exact .gathered hfound hversion (List.cons_ne_nil _ _) hgathered
    · by_cases hprovider : kind ∈ order.providers
      · rw [conduct_build hfound hfolder hprovider]
        rcases hrun : (backend.framework kind order.folder).result s with ⟨s', failure | outcome⟩
        · rw [conduct_buildRecorded_failed hrun]
          exact .broken ⟨hfound, hfolder, hprovider, hrun⟩
        · by_cases hsuccess : outcome.success = true
          · rw [conduct_buildRecorded hrun hsuccess]
            exact .recorded ⟨hfound, hfolder, hprovider, hrun⟩ hsuccess
          · rw [conduct_buildRecorded_complained hrun hsuccess]
            exact .complained ⟨hfound, hfolder, hprovider, hrun⟩ hsuccess
      · have hcontains : (!order.providers.contains kind) = true := by
          rw [Bool.not_eq_true', Bool.eq_false_iff, Ne, List.contains_iff_mem]
          exact hprovider
        rw [build, Program.conduct_bind_quiet backend hkind, if_neg hfolder, if_pos hcontains,
          Program.conduct_bind_quiet backend (Program.conduct_told backend _ s), Program.conduct_fail]
        exact .unprovided hfound hfolder hprovider

/-! ## Failures before anything is compiled -/

/-- What a build leaves that fails early: nothing was asked of the compiler, and the state is the one before, or the
one that the framework left. -/
structure Traceless (backend : Backend σ) (order : BuildOrder) (s : σ) (c : Conduct σ (List Bundle)) : Prop where
  inquiries : c.inquiries = []
  state : c.state = s ∨ ∃ kind ∈ order.providers, c.state = ((backend.framework kind order.folder).result s).1

/-- What frameworks leave alone is left alone. -/
theorem Traceless.kept {c : Conduct σ (List Bundle)} (h : Traceless backend order s c) {τ : Type} {part : σ → τ}
    (hpart : ∀ kind, part ((backend.framework kind order.folder).result s).1 = part s) : part c.state = part s := by
  rcases h.state with hstate | ⟨kind, -, hstate⟩
  · rw [hstate]
  · rw [hstate, hpart]

theorem late_compileGathered (order : BuildOrder) (version : Text) (sources : Table SourceText)
    (remappings : List Text) : (order.compileGathered version sources remappings).Late :=
  (CompileRequest.late_compile _ _ _ _).andThen fun _ => trivial

/-- **A build that fails early** leaves no trace: if it had begun to compile, its failure would be another one. -/
theorem Goes.traceless (h : backend.Late) {c : Conduct σ (List Bundle)} (hgoes : Goes backend order files s c)
    {failure : Failure} (hfails : c.outcome = .error failure) (hearly : failure.IsEarly) :
    Traceless backend order s c := by
  cases hgoes with
  | unknown | unversioned | ungathered | unprovided => exact ⟨rfl, .inl rfl⟩
  | broken ran | complained ran => exact ⟨rfl, .inr ⟨_, ran.provider, (congrArg Prod.fst ran.run).symm⟩⟩
  | gathered => exact absurd hearly ((late_compileGathered _ _ _ _).conduct h hfails)
  | recorded => exact absurd hearly ((late_compileRecords _ _).conduct h hfails)

/-! ## Folders of sources -/

theorem version_not_missing {version : Text} (hnamed : order.version = some version) (hnonempty : version ≠ []) :
    ¬ (order.version = none ∨ order.version = some []) := by
  rintro (hnone | hempty)
  · exact nomatch hnamed.symm.trans hnone
  · exact hnonempty (Option.some.inj (hnamed.symm.trans hempty))

section Folder

variable {c : Conduct σ (List Bundle)} (h : backend.Late) (hgoes : Goes backend order files s c)
  (hfolder : (order.kind files).result backend s = (s, .ok .folder))

include hfolder

theorem kind_eq_folder (hfound : (order.kind files).result backend s = (s, .ok kind)) : kind = .folder :=
  Except.ok.inj (Prod.mk.inj (hfound.symm.trans hfolder)).2

include h hgoes

/-- **The version is missing** exactly if none is asked for, whatever there is to be compiled. -/
theorem Goes.versionMissing_iff :
    c.outcome = .error .versionMissing ↔ order.version = none ∨ order.version = some [] := by
  cases hgoes with
  | unknown found => exact nomatch hfolder.symm.trans found
  | unversioned found missing => exact iff_of_true rfl missing
  | ungathered found named nonempty fails =>
    refine iff_of_false (fun heq => ?_) (version_not_missing named nonempty)
    cases heq
    rcases Project.gathered_failure fails with ⟨defect, heq⟩ | ⟨fault, heq⟩ <;> exact nomatch heq
  | gathered found named nonempty gathered =>
    refine iff_of_false (fun hfails => ?_) (version_not_missing named nonempty)
    exact (late_compileGathered _ _ _ _).conduct h hfails .version
  | unprovided found framework => exact absurd (kind_eq_folder hfolder found) framework
  | broken ran | complained ran | recorded ran => exact absurd (kind_eq_folder hfolder ran.found) ran.framework

omit h in
/-- A build with a version fails as the gathering of its sources does. -/
theorem Goes.outcome_of_ungathered {version : Text} (hnamed : order.version = some version)
    (hnonempty : version ≠ []) {failure : Failure}
    (hfails : Project.gathered files order.folder = .error failure) : c.outcome = .error failure := by
  cases hgoes with
  | unknown found => exact nomatch hfolder.symm.trans found
  | unversioned found missing => exact absurd missing (version_not_missing hnamed hnonempty)
  | ungathered found named nonempty fails => exact congrArg Except.error (Except.error.inj (fails.symm.trans hfails))
  | gathered found named nonempty gathered => exact nomatch gathered.symm.trans hfails
  | unprovided found framework => exact absurd (kind_eq_folder hfolder found) framework
  | broken ran | complained ran | recorded ran => exact absurd (kind_eq_folder hfolder ran.found) ran.framework

/-- **A source is unreadable**, for a build with a version, exactly if one of the files that the folder is read from
is, and the build does not fail with a path that cannot be asked. -/
theorem Goes.sourceUnreadable_iff {version : Text} (hnamed : order.version = some version) (hnonempty : version ≠ []) :
    (∃ fault, c.outcome = .error (.sourceUnreadable fault)) ↔
      (∃ path, Project.IsRead files order.folder path ∧ Project.Unreadable files path) ∧
        ¬ ∃ failure, c.outcome = .error failure ∧ Project.Unasked files order.folder failure := by
  cases hgoes with
  | unknown found => exact nomatch hfolder.symm.trans found
  | unversioned found missing => exact absurd missing (version_not_missing hnamed hnonempty)
  | @ungathered _ failure found named nonempty fails =>
    constructor
    · rintro ⟨fault, hfault⟩
      cases hfault
      refine ⟨Project.exists_unreadable fails, ?_⟩
      rintro ⟨failure, heq, -, fault', rfl, -⟩
      exact nomatch heq
    · rintro ⟨⟨path, hpath, hunreadable⟩, hasked⟩
      obtain ⟨failure', hfails, hfailure⟩ := Project.gathered_of_unreadable hpath hunreadable
      obtain rfl := Except.error.inj (hfails.symm.trans fails)
      rcases hfailure with ⟨fault, rfl⟩ | hunasked
      · exact ⟨fault, rfl⟩
      · exact absurd ⟨_, rfl, hunasked⟩ hasked
  | gathered found named nonempty gathered =>
    refine iff_of_false ?_ ?_
    · rintro ⟨fault, hfails⟩
      exact (late_compileGathered _ _ _ _).conduct h hfails (.source fault)
    · rintro ⟨⟨path, hpath, hunreadable⟩, -⟩
      obtain ⟨failure, hfails, -⟩ := Project.gathered_of_unreadable hpath hunreadable
      exact nomatch hfails.symm.trans gathered
  | unprovided found framework => exact absurd (kind_eq_folder hfolder found) framework
  | broken ran | complained ran | recorded ran => exact absurd (kind_eq_folder hfolder ran.found) ran.framework

end Folder

/-- **Builds that fail before compiling leave no trace.** On a backend whose requests do not fail so themselves, a
build that fails as its project is not known, its version is missing, its sources are unreadable or its framework
fails has asked nothing of the compiler, and has left everything alone that the frameworks leave alone. A build of a
folder fails for its version exactly if none is asked for; and otherwise for its sources exactly if one of the files
that it is read from cannot be read, unless it fails as a path is too long to be asked whether it leads to a file. -/
theorem early_failures_leave_no_trace (h : backend.Late) (order : BuildOrder) (files : Files) (s : σ) :
    let built := (order.build files).conduct backend s
    (∀ failure, built.outcome = .error failure → failure.IsEarly → built.inquiries = [] ∧
      (built.state = s ∨ ∃ kind ∈ order.providers,
        built.state = ((backend.framework kind order.folder).result s).1) ∧
      ∀ {τ : Type} (part : σ → τ), (∀ kind, part ((backend.framework kind order.folder).result s).1 = part s) →
        part built.state = part s) ∧
    ((order.kind files).result backend s = (s, .ok .folder) →
      (built.outcome = .error .versionMissing ↔ order.version = none ∨ order.version = some []) ∧
      ∀ version, order.version = some version → version ≠ [] →
        ((∃ fault, built.outcome = .error (.sourceUnreadable fault)) ↔
          (∃ path, Project.IsRead files order.folder path ∧ Project.Unreadable files path) ∧
            ¬ ∃ failure, built.outcome = .error failure ∧ Project.Unasked files order.folder failure)) := by
  intro built
  have hgoes : Goes backend order files s built := goes_build backend order files s
  refine ⟨fun failure hfails hearly => ?_, fun hfolder => ⟨hgoes.versionMissing_iff h hfolder,
    fun version hnamed hnonempty => hgoes.sourceUnreadable_iff h hfolder hnamed hnonempty⟩⟩
  have htraceless := hgoes.traceless h hfails hearly
  exact ⟨htraceless.inquiries, htraceless.state, fun part hpart => htraceless.kept hpart⟩

/-! ## A folder with a file that nobody may read -/

/-- Running a framework leaves the files and the store in memory alone. -/
theorem framework_keeps (choice : StoreChoice) (timeLimit : Nat) (kind : ProjectKind) (folder : Path) (w : Workshop) :
    (((Workshop.backend choice timeLimit).framework kind folder).result w).1.files = w.files ∧
      (((Workshop.backend choice timeLimit).framework kind folder).result w).1.memory = w.memory := by
  change (((Workshop.runFramework kind folder timeLimit).result w).1.files = w.files ∧
    ((Workshop.runFramework kind folder timeLimit).result w).1.memory = w.memory)
  rw [Workshop.runFramework]
  cases Framework.ofKind? kind with
  | none => exact ⟨rfl, rfl⟩
  | some framework => exact ⟨rfl, rfl⟩

def sealedTree : Files := { entries := [([Text.ofString "A.sol"], .sealed)] }

def sealedOrder : BuildOrder := { project := "solidity_folder", folder := ⟨1, []⟩, version := some "0.8.20" }

/-- A workshop without any programs, with the folder, and an entry in its store. -/
def sealedWorkshop : Workshop where
  files := sealedTree
  memory := [("compile_config_0", "\x7b\x7d")]
  bench := ⟨[], [], [], [], [], fun _ _ => .notFound, []⟩

theorem spot_sealedTree : sealedTree.spot true ⟨1, []⟩ = .ok ⟨[], some .folder⟩ := by decide

theorem below_sealedTree : sealedTree.below [] = [[Text.ofString "A.sol"]] := by decide

theorem askable_sealedTree : Project.Askable sealedTree ⟨1, []⟩ where
  top := ⟨true, by decide⟩
  below d place hspot hplace := by
    obtain rfl : d = [] := congrArg Spot.location (Except.ok.inj (hspot.symm.trans spot_sealedTree))
    rw [below_sealedTree] at hplace
    obtain rfl := List.mem_singleton.mp hplace
    exact ⟨true, by decide⟩
  remappings := ⟨false, by decide⟩

theorem unreadable_sealedTree : Project.IsRead sealedTree ⟨1, []⟩ ⟨1, [Text.ofString "A.sol"]⟩ ∧
    Project.Unreadable sealedTree ⟨1, [Text.ofString "A.sol"]⟩ :=
  ⟨.source spot_sealedTree (below_sealedTree ▸ List.mem_cons_self) (by decide), by decide, _, rfl⟩

/-- The file is reported, the compiler is not asked, and the store is as it was. -/
theorem sealedTree_leaves_no_trace :
    let built := (sealedOrder.build sealedTree).conduct (Workshop.backend .memory 600) sealedWorkshop
    (Workshop.backend .memory 600).Late ∧
      (sealedOrder.kind sealedTree).result (Workshop.backend .memory 600) sealedWorkshop =
        (sealedWorkshop, .ok .folder) ∧
      (∃ fault, built.outcome = .error (.sourceUnreadable fault)) ∧ built.inquiries = [] ∧
      built.state.memory = sealedWorkshop.memory := by
  intro built
  have hlate := Workshop.late_backend .memory 600
  have hfound : (sealedOrder.kind sealedTree).result (Workshop.backend .memory 600) sealedWorkshop =
      (sealedWorkshop, .ok .folder) := rfl
  obtain ⟨htraceless, hfolder⟩ := early_failures_leave_no_trace hlate sealedOrder sealedTree sealedWorkshop
  obtain ⟨-, hreported⟩ := hfolder hfound
  have hfails := (hreported "0.8.20" rfl (by decide)).mpr
    ⟨⟨_, unreadable_sealedTree⟩, fun ⟨_, _, hunasked⟩ => hunasked.1 askable_sealedTree⟩
  obtain ⟨fault, hfault⟩ := hfails
  obtain ⟨hinquiries, -, hkept⟩ := htraceless _ hfault (.source fault)
  exact ⟨hlate, hfound, ⟨fault, hfault⟩, hinquiries,
    hkept Workshop.memory fun kind => (framework_keeps .memory 600 kind _ sealedWorkshop).2⟩

/-! ## A folder whose path is long -/

/-- A name of as many octets as a name may have. -/
def longName : Text := List.replicate 251 120 ++ Project.sourceSuffix

/-- The name of a folder that is shorter by some octets. -/
def wayName : Text := List.replicate 200 97

/-- A tree with such a folder, and a file of the longest name that nobody may read. -/
def longTree : Files := { entries := [([wayName], .folder), ([longName], .sealed)] }

/-- A path that leads into the folder and out of it again and again, and in the end to the top. -/
def longFolder : Path := ⟨1, (List.replicate 19 [wayName, Path.dotDot]).flatten⟩

def longOrder : BuildOrder := { project := "solidity_folder", folder := longFolder, version := some "0.8.20" }

def longWorkshop : Workshop := { sealedWorkshop with files := longTree }

theorem spot_longFolder : longTree.spot true longFolder = .ok ⟨[], some .folder⟩ := by decide +kernel

theorem found_longTree : (longTree.below []).filter (Files.nameEndsWith Project.sourceSuffix) = [[longName]] := rfl

/-- The path of the file is too long, as that of its folder is not. -/
theorem spot_longFile : longTree.spot true (longFolder.under [longName]) =
    .error (Files.fault .nameTooLong (longFolder.under [longName])) := by
  have hnull : Files.hasNull (longFolder.under [longName]) = false := by decide +kernel
  have hlong : Files.pathLimit ≤ Text.utf8Size (longFolder.under [longName]).text := by decide +kernel
  rw [Files.spot, hnull, if_neg Bool.false_ne_true, if_pos hlong]

theorem isFile_longFile : longTree.isFile (longFolder.under [longName]) =
    .error (Files.fault .nameTooLong (longFolder.under [longName])) := by
  rw [Files.isFile, Files.holds, Files.target, spot_longFile]
  rfl

theorem readText_longFile : longTree.readText (longFolder.under [longName]) =
    .error (.file (Files.fault .nameTooLong (longFolder.under [longName]))) := by
  rw [Files.readText, Files.readOctets, Files.target, spot_longFile]
  rfl

theorem unreadable_longFile : Project.IsRead longTree longFolder (longFolder.under [longName]) ∧
    Project.Unreadable longTree (longFolder.under [longName]) := by
  have hfound : [longName] ∈ (longTree.below []).filter (Files.nameEndsWith Project.sourceSuffix) :=
    found_longTree ▸ List.mem_cons_self
  obtain ⟨hbelow, hnamed⟩ := List.mem_filter.mp hfound
  refine ⟨.source spot_longFolder hbelow hnamed, ?_, _, readText_longFile⟩
  rw [isFile_longFile]
  exact fun heq => nomatch heq

theorem gathered_longFolder : Project.gathered longTree longFolder =
    .error (.unforeseen (Files.fault .nameTooLong (longFolder.under [longName])).defect) := by
  have hasked : Project.fileText longTree (longFolder.under [longName]) =
      .error (.unforeseen (Files.fault .nameTooLong (longFolder.under [longName])).defect) := by
    rw [Project.fileText, isFile_longFile]
  rw [Project.gathered, Project.outcome_sources_of_folder spot_longFolder, found_longTree, List.mergeSort_singleton,
    Project.outcome_sourcesAt_cons, hasked]
  rfl

/-- **A file that cannot be read need not be reported**: where its path is too long, whether it leads to a file is not
foreseen to fail. -/
theorem longFile_not_reported :
    let built := (longOrder.build longTree).conduct (Workshop.backend .memory 600) longWorkshop
    (longOrder.kind longTree).result (Workshop.backend .memory 600) longWorkshop = (longWorkshop, .ok .folder) ∧
      longOrder.version = some "0.8.20" ∧
      (∃ path, Project.IsRead longTree longOrder.folder path ∧ Project.Unreadable longTree path) ∧
      (∃ defect, built.outcome = .error (.unforeseen defect)) ∧
      ¬ ∃ fault, built.outcome = .error (.sourceUnreadable fault) := by
  intro built
  have hfound : (longOrder.kind longTree).result (Workshop.backend .memory 600) longWorkshop =
      (longWorkshop, .ok .folder) := rfl
  have hgoes : Goes (Workshop.backend .memory 600) longOrder longTree longWorkshop built := goes_build _ _ _ _
  have hnamed : longOrder.version = some "0.8.20" := rfl
  have houtcome := hgoes.outcome_of_ungathered hfound hnamed (by decide) gathered_longFolder
  refine ⟨hfound, hnamed, ⟨_, unreadable_longFile⟩, ⟨_, houtcome⟩, ?_⟩
  rintro ⟨fault, hfault⟩
  exact nomatch houtcome.symm.trans hfault

end BuildOrder

end SolidityBuild
