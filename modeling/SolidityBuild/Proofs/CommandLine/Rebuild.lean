import SolidityBuild.Proofs.Build.Rebuilding
import SolidityBuild.Proofs.CommandLine.Building
import SolidityBuild.Proofs.Project.Sources

/-!
Building a folder of sources a second time. In the tree that a build leaves, everything is read as before, unless a
link was lost or leads elsewhere, and the compilation finds its answer; so the same is printed, nothing is changed,
and no command is given. A link that leads elsewhere may keep the folder from being built again.
-/

set_option autoImplicit false

namespace SolidityBuild

/-! ## Names that a cache does not use -/

theorem isName_cacheName : Files.IsName cacheName := by decide

theorem not_fresh_of_source {name : Text} (h : Text.endsWith name Project.sourceSuffix = true) :
    ¬ FolderStore.Fresh cacheName name := by
  rw [Text.endsWith, List.isSuffixOf_iff_suffix] at h
  rintro (rfl | hentry)
  · exact absurd h (by decide)
  · rcases List.suffix_or_suffix_of_suffix h hentry with hsuffix | hsuffix
    · exact absurd hsuffix (by decide)
    · exact absurd hsuffix (by decide)

/-! ## Building a folder twice -/

namespace CommandLine

variable {w w' : Workshop} {a : BuildArguments} {folder : Path} {ended : Exit}

/-- The settings are read through the path of their file only. -/
theorem config_congr {files files' : Files} (h : files'.spot true (folder.child ProjectConfig.fileName) =
    files.spot true (folder.child ProjectConfig.fileName)) : config files' folder = config files folder := by
  rw [config, config, Files.exists?, Files.exists?, Files.holds_congr h, ProjectConfig.load, ProjectConfig.load,
    Files.readText_congr h]

/-- **What a build reads is read again** in a tree that its cache furnished: the folder that its arguments name,
its settings, its sources and its remappings. -/
theorem reads_again {files files' : Files} {argument : Text} (hkept : Files.LinksKept files files' folder)
    (hfiles : files.WellFormed) (hfiles' : files'.WellFormed)
    (hfurnished : Files.Furnished (FolderStore.Fresh cacheName) files files')
    (hfound : CommandLine.folder files argument = .ok (.ok folder)) :
    CommandLine.folder files' argument = .ok (.ok folder) ∧ config files' folder = config files folder ∧
      Project.sources files' folder = Project.sources files folder ∧
      Project.remappings files' folder = Project.remappings files folder := by
  obtain ⟨hresolve, hisFolder⟩ := folder_found hfound
  obtain ⟨d, hfolder⟩ := Files.isFolder_iff.mp hisFolder
  have hisFolder' : files'.isFolder folder = .ok true :=
    Files.isFolder_iff.mpr ⟨d, (hfurnished.keeps hkept.stand).spot_folder hfolder⟩
  have hresolve' : resolve files' (.ofText argument) = .ok folder :=
    resolve_eq_ok_iff.mpr (Files.resolve_congr (hfurnished.sameLinks hkept.stand) hfurnished.here hisFolder'
      (resolve_eq_ok_iff.mp hresolve))
  refine ⟨folder_eq hresolve' hisFolder', ?_, ?_, ?_⟩
  · exact config_congr (hkept.spot_child hfiles hfiles' hfurnished hfolder (by decide) (by decide))
  · exact Project.sources_congr hkept hfiles hfiles' hfurnished hfolder fun _ => not_fresh_of_source
  · exact Project.remappings_congr hkept hfiles hfiles' hfurnished hfolder (by decide)

section Token

def tokenSource : Text := "contract Token { }"

def tokenPath : Path := ⟨1, ["token"]⟩

/-- The folder of a project with one source. -/
def tokenFolder : Files :=
  (Files.put {} ["token"] .folder).put ["token", "Token.sol"] (.file (tokenSource.flatMap Text.octetsOf))

/-- The same folder with a link that leads through the folder of the cache, to a file that holds no text. -/
def linkedFolder : Files :=
  (tokenFolder.put ["token", "Vault.sol"] (.link ".tmp/../key")).put ["token", "key"] (.file [0xff])

/-- A compiler and its selector that print an empty object each time. -/
def reticentBench : Workbench :=
  ⟨[("solc-select", "/usr/bin/solc-select"), ("solc", "/usr/bin/solc")], [], [], [], [],
    fun _ _ => .finished 0 "\x7b\x7d" [], []⟩

/-- A bench without programs, on which every command would fail. -/
def bareBench : Workbench := ⟨[], [], [], [], [], fun _ _ => .notFound, []⟩

def tokenLine : List Text := ["build", "token", "--project", "solidity_folder", "--compiler-version", "0.8.20"]

def tokenArguments : BuildArguments where
  folder := "token"
  project := some "solidity_folder"
  version := some "0.8.20"

/-- The request that is compiled for both folders. -/
def tokenRequest : CompileRequest := BuildOrder.folderRequest [("Token.sol", ⟨tokenSource, []⟩)] []

/-- The backend with the cache in the folder. -/
def tokenBackend : Backend Workshop :=
  Workshop.backend (.folder ⟨tokenPath.child cacheName⟩) Compiler.defaultTimeLimit

theorem ofArguments_tokenLine : Request.ofArguments tokenLine = .build tokenArguments := rfl

theorem ordersFolder_tokenArguments : OrdersFolder tokenArguments "0.8.20" := ⟨rfl, rfl, by decide, rfl, rfl⟩

theorem printsScalar_reticentBench : reticentBench.PrintsScalar := by
  rintro n c code stdout stderr ⟨⟩
  exact Text.scalar_ofString "\x7b\x7d"

open Json in
theorem key_tokenRequest : Cache.key (.object tokenRequest.document) =
    .ok "c5dd77f158469d15ab745b03066df7c9e07f85d38af5e07f6bab9c25f458534d" := by
  have hsorted : (Json.object tokenRequest.document).sortKeys = .object [("language", .text "Solidity"),
      ("settings", .object [(Settings.selectionKey, .object [(Settings.wildcard, .object
        [(Settings.wholeFile, .list (Settings.fileOutputs.map .text)),
          (Settings.wildcard, .list (Settings.contractOutputs.map .text))])]), ("remappings", .list [])]),
      ("sources", .object [("Token.sol", .object [("content", .text tokenSource)])])] := by
    change (Json.object [("language", .text "Solidity"),
      ("sources", .object [("Token.sol", .object [("content", .text tokenSource)])]),
      ("settings", .object [("remappings", .list []), (Settings.selectionKey, .object [(Settings.wildcard, .object
        [(Settings.wildcard, .list (Settings.contractOutputs.map .text)),
          (Settings.wholeFile, .list (Settings.fileOutputs.map .text))])])])]).sortKeys = _
    simp only [sortKeys, sortKeysEntries, sortKeysItems_eq, List.mergeSort_singleton]
    -- from the outside in: sources and settings, remappings and outputs, contracts and files
    rw [mergeSort_keyLe_of_perm (by decide) (.cons _ (.swap _ _ _)) (by decide),
      mergeSort_keyLe_of_perm (by decide) (.swap _ _ _) (by decide),
      mergeSort_keyLe_of_perm (by decide) (.swap _ _ _) (by decide)]
    rfl
  rw [Cache.key, canonical, hsorted]
  decide +kernel

/-- What the request is compiled to is printed. -/
theorem run_tokenLine {files : Files} {bundle : Bundle}
    (hfound : CommandLine.folder files tokenArguments.folder = .ok (.ok tokenPath))
    (hread : config files tokenPath = .ok (.ok {}))
    (hsources : (Project.sources files tokenPath).outcome = .ok [("Token.sol", ⟨tokenSource, []⟩)])
    (hremappings : (Project.remappings files tokenPath).outcome = .ok [])
    (hcompile : (tokenRequest.compile "0.8.20" .all .default).result tokenBackend ⟨files, [], reticentBench⟩ =
      (w', .ok bundle)) :
    (run tokenLine).result ⟨files, [], reticentBench⟩ = (w', .ok ⟨0, resultText [bundle], []⟩) := by
  rw [result_run tokenLine ofArguments_tokenLine]
  exact ((build_folder_succeeds_iff (w := ⟨files, [], reticentBench⟩) ordersFolder_tokenArguments).mpr
    ⟨tokenPath, {}, tokenPath.child cacheName, _, _, bundle, hfound, hread, rfl, hsources, hremappings, hcompile,
      rfl⟩).1

theorem ordinary_tokenFolder : tokenFolder.Ordinary := by
  have hfolder : (Files.put {} ["token"] .folder).Ordinary :=
    Files.Ordinary.empty.put (by decide) rfl (by decide) (by decide) fun _ h => nomatch h
  exact hfolder.put (by decide) (by decide) (by decide) (by decide) fun _ h => nomatch h

theorem sources_tokenFolder :
    (Project.sources tokenFolder tokenPath).outcome = .ok [("Token.sol", ⟨tokenSource, []⟩)] := by
  have hspot : tokenFolder.spot true tokenPath = .ok ⟨["token"], some .folder⟩ := rfl
  rw [Project.sources_of_places hspot [["Token.sol"]] (by decide) (by decide)]
  have hfile : tokenFolder.spot true (tokenPath.under ["Token.sol"]) =
      .ok ⟨["token", "Token.sol"], some (.file (tokenSource.flatMap Text.octetsOf))⟩ := rfl
  have hread := FolderStore.readText_of_spot (Text.scalar_ofString _) (by decide) hfile
  exact Project.sourcesAt_of_text (by decide) hread rfl

theorem compile_tokenFolder : ∃ w' bundle, (tokenRequest.compile "0.8.20" .all .default).result tokenBackend
    ⟨tokenFolder, [], reticentBench⟩ = (w', .ok bundle) := by
  have hok : ((tokenRequest.compile "0.8.20" .all .default).result tokenBackend
      ⟨tokenFolder, [], reticentBench⟩).2.isOk = true := by
    rw [CompileRequest.result_compile, CacheState.resolve, key_tokenRequest]
    decide +kernel
  rcases hresult : (tokenRequest.compile "0.8.20" .all .default).result tokenBackend
    ⟨tokenFolder, [], reticentBench⟩ with ⟨w', failure | bundle⟩
  · rw [hresult] at hok
    cases hok
  · exact ⟨w', bundle, rfl⟩

/-- What is found in that folder under names of sources. -/
def linkedPlaces : List Location := [["Token.sol"], ["Vault.sol"]]

theorem wellFormed_linkedFolder : linkedFolder.WellFormed := by
  have hlink : (tokenFolder.put ["token", "Vault.sol"] (.link ".tmp/../key")).WellFormed :=
    ordinary_tokenFolder.toWellFormed.put (by decide) (by decide) (by decide) (by decide) _
  exact hlink.put (by decide) (by decide) (by decide) (by decide) _

/-- The link leads nowhere as long as there is no cache. -/
theorem sources_linkedFolder :
    (Project.sources linkedFolder tokenPath).outcome = .ok [("Token.sol", ⟨tokenSource, []⟩)] := by
  have hspot : linkedFolder.spot true tokenPath = .ok ⟨["token"], some .folder⟩ := rfl
  rw [Project.sources_of_places hspot linkedPlaces (by decide) (by decide)]
  have hfile : linkedFolder.spot true (tokenPath.under ["Token.sol"]) =
      .ok ⟨["token", "Token.sol"], some (.file (tokenSource.flatMap Text.octetsOf))⟩ := rfl
  have hread := FolderStore.readText_of_spot (Text.scalar_ofString _) (by decide) hfile
  refine Project.sourcesAt_of_text (by decide) hread ?_
  exact Project.sourcesAt_of_no_file (by decide)

/-- Once the folder is built, the link leads to a file that cannot be read. -/
theorem compile_linkedFolder : ∃ w' bundle, (tokenRequest.compile "0.8.20" .all .default).result tokenBackend
    ⟨linkedFolder, [], reticentBench⟩ = (w', .ok bundle) ∧
    CommandLine.folder w'.files tokenArguments.folder = .ok (.ok tokenPath) ∧
    (Project.sources w'.files tokenPath).outcome.isOk = false := by
  obtain ⟨r, hresult, hok, hresolve, hisFolder, hspot, hfound, hunread⟩ : ∃ r,
      (tokenRequest.compile "0.8.20" .all .default).result tokenBackend ⟨linkedFolder, [], reticentBench⟩ = r ∧
      r.2.isOk = true ∧ r.1.files.resolve (.ofText tokenArguments.folder) = .ok tokenPath ∧
      r.1.files.isFolder tokenPath = .ok true ∧
      r.1.files.spot true tokenPath = .ok ⟨["token"], some .folder⟩ ∧
      (r.1.files.below ["token"]).filter (Files.nameEndsWith Project.sourceSuffix) = linkedPlaces ∧
      (Project.sourcesAt r.1.files tokenPath linkedPlaces).outcome.isOk = false := by
    have hcompile := CompileRequest.result_compile tokenBackend tokenRequest "0.8.20" .all .default
      ⟨linkedFolder, [], reticentBench⟩
    -- keys are sorted by a recursion that does not compute, so the key is put in its place
    rw [CacheState.resolve, key_tokenRequest] at hcompile
    refine ⟨_, hcompile, ?_⟩
    decide +kernel
  obtain ⟨w', failure | bundle⟩ := r
  · cases hok
  · refine ⟨w', bundle, hresult, folder_eq (resolve_eq_ok_iff.mpr hresolve) hisFolder, ?_⟩
    rw [Project.sources_of_places hspot linkedPlaces hfound (by decide)]
    exact hunread

end Token

end CommandLine

end SolidityBuild
