import SolidityBuild.Build.Compilation
import SolidityBuild.Proofs.Schema.Decoder
import SolidityBuild.Proofs.Settings

/-!
The document that is compiled. A request that was decoded from a well-formed document is sent as a
well-formed one, whose entries are the declared fields in front of what was not declared; and requests
that are sent as documents equal up to the order of keys are compiled as documents equal up to it.
-/

set_option autoImplicit false

namespace SolidityBuild

open Schema Json

variable {p : Text → Prop}

/-! ## Decoded requests -/

theorem SourceText.wellFormed_toJson {j : Json} {s : SourceText} (hj : WellFormed p j)
    (h : SourceText.decoder j = .value s) : WellFormed p s.toJson := by
  obtain ⟨t, rfl, hread⟩ := model_eq_value h
  obtain ⟨content, hcontent, rfl⟩ := Decoded.map_eq_value hread
  obtain ⟨x, hx, htext⟩ := Field.required_eq_value hcontent
  obtain rfl := Decoder.nonEmptyText_eq_value htext
  exact (hj.of_sublist (undeclared_sublist _ t)).cons
    (not_mem_keys_undeclared List.mem_cons_self t) (hj.key (Table.mem_of_get? hx)) (hj.of_get? hx)

namespace CompileRequest

/-- The sources as they are sent. -/
def sourcesJson (r : CompileRequest) : Table Json := r.sources.mapValues SourceText.toJson

theorem wellFormed_sourcesJson {entries : Table Json} {sources : Table SourceText}
    (hj : WellFormed p (.object entries))
    (h : List.Forall₂ (fun e f => e.1 = f.1 ∧ SourceText.decoder e.2 = .value f.2) entries sources) :
    WellFormed p (.object (sources.mapValues SourceText.toJson)) := by
  have hsources : sources.Holds p fun s => WellFormed p s.toJson :=
    (wellFormed_object_iff.mp hj).of_forall₂ (S := fun x s => SourceText.decoder x = .value s)
      (fun _ _ => SourceText.wellFormed_toJson) h
  exact hsources.wellFormed fun _ hs => hs

/-- The entries that are sent, before numbers that are not finite are replaced. -/
def rawEntries (r : CompileRequest) : Table Json :=
  ("language", .text r.language) :: ("sources", .object r.sourcesJson) ::
    ("settings", .object r.settings) :: r.extras

/-- The entries that are sent. -/
def entries (r : CompileRequest) : Table Json := r.rawEntries.mapValues finiteOnly

theorem toJson_eq (r : CompileRequest) : r.toJson = .object r.entries := finiteOnly_object r.rawEntries

theorem names_distinct : ("language" : Text) ≠ "sources" ∧ ("language" : Text) ≠ "settings" ∧
    ("sources" : Text) ≠ "settings" := by decide

/-- **A request decoded from a well-formed document is sent as one.** The language may be that of a
request that names none. -/
theorem wellFormed_toJson (hp : ∀ s : String, p (Text.ofString s)) {j : Json} {r : CompileRequest}
    (hj : WellFormed p j) (h : CompileRequest.ofJson j = .ok r) : WellFormed p r.toJson := by
  obtain ⟨t, rfl, hread⟩ := model_eq_value (Decoded.toExcept_eq_ok h)
  obtain ⟨g, settings, hg, hsettings, rfl⟩ := Decoded.seq_eq_value hread
  obtain ⟨g', sources, hg', hsources, rfl⟩ := Decoded.seq_eq_value hg
  obtain ⟨language, hlanguage, rfl⟩ := Decoded.map_eq_value hg'
  have hl : WellFormed p (.text language) := by
    rcases Field.withDefault_eq_value hlanguage with ⟨-, rfl⟩ | ⟨x, hx, htext⟩
    · exact .text (hp "Solidity")
    · obtain rfl := Decoder.text_eq_value htext
      exact hj.of_get? hx
  have hsrc : WellFormed p (.object (sources.mapValues SourceText.toJson)) := by
    obtain ⟨x, hx, htable⟩ := Field.required_eq_value hsources
    obtain ⟨entries, rfl, hentries⟩ := Decoder.table_eq_value htable
    exact wellFormed_sourcesJson (hj.of_get? hx) hentries
  have hset : WellFormed p (.object settings) := by
    rcases Field.withDefault_eq_value hsettings with ⟨-, rfl⟩ | ⟨x, hx, hmapping⟩
    · exact .empty
    · obtain rfl := Decoder.mapping_eq_value hmapping
      exact hj.of_get? hx
  have hextras := hj.of_sublist (undeclared_sublist [languageField, sourcesField, settingsField] t)
  have hfresh : ∀ name : Text, ⟨name, none⟩ ∈ [languageField, sourcesField, settingsField] →
      name ∉ (undeclared [languageField, sourcesField, settingsField] t).keys :=
    fun name hname => not_mem_keys_undeclared hname t
  -- the declared fields stand in front of the others, each under a name that is not there yet
  obtain ⟨hls, hlt, hst⟩ := names_distinct
  have hthird := hextras.cons (hfresh "settings" (by simp [settingsField])) (hp _) hset
  have hsecond := hthird.cons (k := "sources") (v := .object (sources.mapValues SourceText.toJson))
    (List.not_mem_cons_of_ne_of_not_mem hst (hfresh "sources" (by simp [sourcesField]))) (hp _) hsrc
  have hfirst := hsecond.cons (k := "language") (v := .text language)
    (List.not_mem_cons_of_ne_of_not_mem hls
      (List.not_mem_cons_of_ne_of_not_mem hlt (hfresh "language" (by simp [languageField]))))
    (hp _) hl
  exact hfirst.finiteOnly

/-! ## The document with augmented settings -/

theorem document_eq (r : CompileRequest) :
    r.document = r.entries.put "settings" (.object (Settings.augment (Settings.tableAt r.entries "settings"))) := by
  rw [document, toJson_eq]

/-- The settings of the document are the augmented ones. -/
theorem tableAt_document (r : CompileRequest) :
    Settings.tableAt r.document "settings" = Settings.augment (Settings.tableAt r.entries "settings") := by
  rw [document_eq, Settings.tableAt_put_self]

/-- **Requests that are sent as equal up to the order of keys are compiled as such.** -/
theorem document_alike (hp : ∀ s : String, p (Text.ofString s)) {r r' : CompileRequest}
    (h : Alike p r.toJson r'.toJson) : Alike p (.object r.document) (.object r'.document) := by
  rw [toJson_eq, toJson_eq] at h
  rw [document_eq, document_eq]
  exact h.put (hp "settings") (Settings.augment_alike hp (Settings.tableAt_alike h "settings"))

theorem wellFormed_document (hp : ∀ s : String, p (Text.ofString s)) {r : CompileRequest}
    (h : WellFormed p r.toJson) : WellFormed p (.object r.document) :=
  (document_alike hp (.refl h)).left

/-- The sources of the document that is compiled. -/
def sentSources (r : CompileRequest) : Table Json := r.sourcesJson.mapValues finiteOnly

theorem get?_sources_document (r : CompileRequest) :
    r.document.get? "sources" = some (.object r.sentSources) := by
  obtain ⟨hls, -, hst⟩ := names_distinct
  rw [document_eq, Table.get?_put_of_ne hst, entries, Table.get?_mapValues, rawEntries,
    Table.get?_cons_of_ne (Ne.symm hls), Table.get?_cons_self, Option.map_some, finiteOnly_object,
    sentSources]

/-- Every source that is sent has a text for its content. -/
theorem get?_content_of_mem {r : CompileRequest} {e : Text × Json} (he : e ∈ r.sentSources) :
    ∃ t, e.2.get? "content" = some (.text t) := by
  obtain ⟨e', he', rfl⟩ := List.mem_map.mp he
  obtain ⟨⟨path, s⟩, -, rfl⟩ := List.mem_map.mp he'
  refine ⟨s.content, ?_⟩
  dsimp only [SourceText.toJson, Schema.document]
  rw [finiteOnly_object]
  show Table.get? (Table.mapValues finiteOnly (("content", Json.text s.content) :: s.extras)) "content" = _
  rw [Table.get?_mapValues, Table.get?_cons_self, Option.map_some]
  rfl

end CompileRequest

end SolidityBuild
