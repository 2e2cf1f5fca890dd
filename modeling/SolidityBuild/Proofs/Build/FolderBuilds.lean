import SolidityBuild.Proofs.Compilation.Refusals
import SolidityBuild.Proofs.CommandLine.Rebuild
import SolidityBuild.Proofs.Document.Rereading
import SolidityBuild.Proofs.Project.Collected

/-!
What a folder of sources is built to. The request has the collected texts and the listed remappings, and nothing
else but what augmenting the settings adds; and whatever the answer says about a path, from the cache or from the
compiler, the text of a collected source is the one that was collected.
-/

set_option autoImplicit false

namespace SolidityBuild

open Json

namespace BuildOrder

variable {sources : Table SourceText} {remappings : List Text}

/-! ## The request -/

/-- The document that a folder is compiled as. -/
def folderDocument (sources : Table SourceText) (remappings : List Text) : Table Json :=
  [("language", .text "Solidity"),
    ("sources", .object (sources.mapValues fun s => .object [("content", .text s.content)])),
    ("settings", .object (Settings.augment [("remappings", .list (remappings.map .text))]))]

theorem proper_folderRequest (h : ∀ e ∈ sources, Project.IsCollected e.2) (remappings : List Text) :
    (folderRequest sources remappings).Proper where
  sources e he := by
    refine ⟨(h e he).content_ne_nil, ?_⟩
    rw [(h e he).bare]
    exact List.not_mem_nil
  fresh _ _ := List.not_mem_nil

/-- **The collected texts make a request.** -/
theorem ofJson_folderRequest (h : ∀ e ∈ sources, Project.IsCollected e.2) (remappings : List Text) :
    CompileRequest.ofJson (.object (folderRequest sources remappings).rawEntries) =
      .ok (folderRequest sources remappings) :=
  CompileRequest.ofJson_rawEntries (proper_folderRequest h remappings)

/-- There are no numbers in the request, so it is sent as it is, with augmented settings. -/
theorem document_folderRequest (h : ∀ e ∈ sources, Project.IsCollected e.2) (remappings : List Text) :
    (folderRequest sources remappings).document = folderDocument sources remappings := by
  have hsettings : (folderRequest sources remappings).settings.mapValues finiteOnly =
      (folderRequest sources remappings).settings := by
    refine Finite.mapValues_eq (finite_object_iff.mpr (List.forall_mem_singleton.mpr ?_))
    refine finite_list_iff.mpr fun x hx => ?_
    obtain ⟨t, -, rfl⟩ := List.mem_map.mp hx
    rfl
  have hsources : (folderRequest sources remappings).compiled.sourcesJson =
      sources.mapValues fun s => .object [("content", .text s.content)] := by
    rw [CompileRequest.sourcesJson, CompileRequest.compiled, Table.mapValues_mapValues]
    refine List.map_congr_left fun e he => ?_
    dsimp only
    rw [SourceText.toJson_sent, SourceText.toJson_eq, SourceText.entries, (h e he).bare]
    rfl
  rw [CompileRequest.document_eq_rawEntries, CompileRequest.rawEntries, hsources]
  dsimp only [CompileRequest.compiled]
  rw [hsettings]
  rfl

theorem sources_folderDocument (sources : Table SourceText) (remappings : List Text) :
    MergedReport.Sources (folderDocument sources remappings)
      (sources.mapValues fun s => .object [("content", .text s.content)]) where
  found := rfl
  texts e he := by
    obtain ⟨s, -, rfl⟩ := List.mem_map.mp he
    exact ⟨_, rfl⟩

theorem remappingsFrom_folderDocument (sources : Table SourceText) (remappings : List Text) :
    Bundle.remappingsFrom (Bundle.askedRemappings (folderDocument sources remappings)) = .ok (some remappings) := by
  have hkey : ("remappings" : Text) ≠ Settings.selectionKey := by decide
  have hasked : Bundle.askedRemappings (folderDocument sources remappings) = .list (remappings.map .text) := by
    rw [Bundle.askedRemappings, folderDocument]
    change MergedReport.field (Settings.augment _) "remappings" = _
    rw [Settings.augment, MergedReport.field, Table.get?_put_of_ne hkey]
    rfl
  rw [hasked]
  exact Bundle.remappingsFrom_of_texts rfl

end BuildOrder

/-! ## The bundle -/

/-- A compilation that gives a bundle makes it of some answer. -/
theorem CompileRequest.exists_answer_of_compile {σ : Type} {backend : Backend σ} {r : CompileRequest}
    {version : Text} {selection : Selection} {post : Postprocessing} {s s' : σ} {bundle : Bundle}
    (h : (r.compile version selection post).result backend s = (s', .ok bundle)) : ∃ answer,
      (Bundle.normalize answer (.text version) (.object r.document) selection post).outcome = .ok bundle := by
  rw [result_compile] at h
  obtain ⟨s₁, state, -, h⟩ := follow_eq_ok_iff.mp h
  obtain ⟨s₂, answer, -, h⟩ := follow_eq_ok_iff.mp h
  exact ⟨answer, congrArg Prod.snd h⟩

namespace BuildOrder

/-- Whatever an answer says about a collected path, the text is the collected one. -/
theorem source_of_merged {sources : Table SourceText} (hkeys : sources.keys.Nodup)
    (reported : Table MergedSource) {path : Text} {source : SourceText} (h : sources.get? path = some source) :
    ∃ id, ((MergedReport.putContents reported
      (sources.mapValues fun s => .object [("content", .text s.content)])).mapValues Bundle.compiled).get? path =
        some ⟨id, source.content⟩ := by
  have hentries : (sources.mapValues fun s => Json.object [("content", .text s.content)]).keys.Nodup := by
    rwa [Table.keys_mapValues]
  have hentry : (sources.mapValues fun s => Json.object [("content", .text s.content)]).get? path =
      some (.object [("content", .text source.content)]) := by
    rw [Table.get?_mapValues, h]
    rfl
  exact ⟨_, Bundle.get?_compiled_of_content reported hentries hentry rfl⟩

/-- A backend that holds nothing, with a compiler that reports another text for the one source. -/
def forging : Backend Unit where
  has := fun _ => pure false
  read := fun _ => pure (.object [])
  write := fun _ _ => pure ()
  invoke := fun _ _ => pure (.object [("sources", .object
    [("Token.sol", .object [("id", .int 7), ("source", .text "contract Forged \x7b \x7d")])])])
  framework := fun kind _ => .fail (.providerMissing kind)

def tokenOrder : BuildOrder where
  project := "solidity_folder"
  folder := CommandLine.tokenPath
  version := some "0.8.20"
  post := {}

end BuildOrder

end SolidityBuild
