import SolidityBuild.Proofs.Document.CompileRequest

/-!
The document that is compiled as a request of its own. It is accepted, with the settings augmented and without
numbers that are not finite; and the document that is compiled for it is the same to the letter, since neither
augmenting again nor replacing such numbers again changes anything.
-/

set_option autoImplicit false

namespace SolidityBuild

open Schema Json

/-! ## What every decoded request is -/

namespace SourceText

/-- A source that may have been decoded: it has a text, and what is not declared does not hold another. -/
structure Proper (s : SourceText) : Prop where
  content_ne_nil : s.content ≠ []
  fresh : ("content" : Text) ∉ s.extras.keys

theorem proper_of_decoder {j : Json} {s : SourceText} (h : SourceText.decoder j = .value s) : s.Proper := by
  obtain ⟨t, rfl, hread⟩ := model_eq_value h
  obtain ⟨content, hcontent, rfl⟩ := Decoded.map_eq_value hread
  obtain ⟨x, -, htext⟩ := Field.required_eq_value hcontent
  exact ⟨Decoder.ne_nil_of_nonEmptyText htext, not_mem_keys_undeclared (f := contentField) List.mem_cons_self t⟩

end SourceText

namespace CompileRequest

/-- A request that may have been decoded: its sources are proper, and what is not declared does not hold another
declared field. -/
structure Proper (r : CompileRequest) : Prop where
  sources : ∀ e ∈ r.sources, e.2.Proper
  fresh : ∀ name : Text, ⟨name, none⟩ ∈ [languageField, sourcesField, settingsField] → name ∉ r.extras.keys

theorem proper_of_ofJson {j : Json} {r : CompileRequest} (h : CompileRequest.ofJson j = .ok r) : r.Proper := by
  obtain ⟨t, rfl, hread⟩ := model_eq_value (Decoded.toExcept_eq_ok h)
  obtain ⟨g, settings, hg, -, rfl⟩ := Decoded.seq_eq_value hread
  obtain ⟨g', sources, hg', hsources, rfl⟩ := Decoded.seq_eq_value hg
  obtain ⟨language, -, rfl⟩ := Decoded.map_eq_value hg'
  refine ⟨fun e he => ?_, fun name hname => not_mem_keys_undeclared hname t⟩
  obtain ⟨x, -, htable⟩ := Field.required_eq_value hsources
  obtain ⟨entries, -, hentries⟩ := Decoder.table_eq_value htable
  obtain ⟨e', -, -, hdecoded⟩ := exists_mem_of_forall₂ hentries he
  exact SourceText.proper_of_decoder hdecoded

end CompileRequest

/-! ## Reading what is written -/

/-- The entries of a source. -/
def SourceText.entries (s : SourceText) : Table Json := ("content", .text s.content) :: s.extras

theorem SourceText.toJson_eq (s : SourceText) : s.toJson = .object s.entries := rfl

/-- A proper source is read back from its document. -/
theorem SourceText.decoder_toJson {s : SourceText} (h : s.Proper) : SourceText.decoder s.toJson = .value s := by
  have hcontent := Decoder.nonEmptyText_text h.content_ne_nil
  have hfield : contentField.required s.entries Decoder.nonEmptyText = .value s.content :=
    Field.read_of_get? (Table.get?_cons_self _ _ _) _ hcontent
  have hextras : undeclared [contentField] ([(("content" : Text), Json.text s.content)] ++ s.extras) =
      s.extras :=
    undeclared_append rfl (List.forall_mem_singleton.mpr h.fresh)
  change (fun content => SourceText.mk content _) <$> contentField.required s.entries Decoder.nonEmptyText = _
  rw [hfield]
  exact congrArg (fun extras => Decoded.value (SourceText.mk s.content extras)) hextras

namespace CompileRequest

/-- **A proper request is read back from its document.** -/
theorem ofJson_rawEntries {r : CompileRequest} (h : r.Proper) : ofJson (.object r.rawEntries) = .ok r := by
  obtain ⟨hls, hlt, hst⟩ := names_distinct
  have hlanguage : languageField.withDefault r.rawEntries defaultLanguage Decoder.text = .value r.language :=
    Field.read_of_get? (Table.get?_cons_self _ _ _) _ rfl
  have hsources : sourcesField.required r.rawEntries (Decoder.table SourceText.decoder) = .value r.sources := by
    have hget : r.rawEntries.get? "sources" = some (.object r.sourcesJson) := by
      rw [rawEntries, Table.get?_cons_of_ne hls.symm, Table.get?_cons_self]
    have hread := Decoder.table_mapValues (g := id) fun e he => SourceText.decoder_toJson (h.sources e he)
    rw [Table.mapValues_id] at hread
    exact Field.read_of_get? hget _ hread
  have hsettings : settingsField.withDefault r.rawEntries [] Decoder.mapping = .value r.settings := by
    have hget : r.rawEntries.get? "settings" = some (.object r.settings) := by
      rw [rawEntries, Table.get?_cons_of_ne hlt.symm, Table.get?_cons_of_ne hst.symm, Table.get?_cons_self]
    exact Field.read_of_get? hget _ rfl
  have hextras : undeclared [languageField, sourcesField, settingsField]
      ([(("language" : Text), Json.text r.language), ("sources", .object r.sourcesJson),
        ("settings", .object r.settings)] ++ r.extras) = r.extras := by
    refine undeclared_append rfl fun f hf => h.fresh f.name ?_
    -- none of the fields has a second name
    have hsecond : ∀ f ∈ [languageField, sourcesField, settingsField],
        ⟨f.name, none⟩ ∈ [languageField, sourcesField, settingsField] := by
      simp [languageField, sourcesField, settingsField]
    exact hsecond f hf
  have hdecoder : decoder (.object r.rawEntries) = .value r := by
    change (fun language sources settings => CompileRequest.mk language sources settings _) <$>
      languageField.withDefault r.rawEntries defaultLanguage Decoder.text <*>
      sourcesField.required r.rawEntries (Decoder.table SourceText.decoder) <*>
      settingsField.withDefault r.rawEntries [] Decoder.mapping = _
    rw [hlanguage, hsources, hsettings]
    exact congrArg (fun extras => Decoded.value (CompileRequest.mk r.language r.sources r.settings extras)) hextras
  rw [ofJson, hdecoder]
  rfl

end CompileRequest

/-! ## The document as a request -/

namespace SourceText

/-- The source as it is sent. -/
def sent (s : SourceText) : SourceText := ⟨s.content, s.extras.mapValues finiteOnly⟩

theorem Proper.sent {s : SourceText} (h : s.Proper) : s.sent.Proper where
  content_ne_nil := h.content_ne_nil
  fresh := by
    rw [SourceText.sent, Table.keys_mapValues]
    exact h.fresh

theorem toJson_sent (s : SourceText) : s.sent.toJson = s.toJson.finiteOnly := by
  rw [toJson_eq, toJson_eq, finiteOnly_object]
  rfl

end SourceText

namespace CompileRequest

/-- The request as it is sent: without numbers that are not finite. -/
def sent (r : CompileRequest) : CompileRequest where
  language := r.language
  sources := r.sources.mapValues SourceText.sent
  settings := r.settings.mapValues finiteOnly
  extras := r.extras.mapValues finiteOnly

theorem Proper.sent {r : CompileRequest} (h : r.Proper) : r.sent.Proper where
  sources e he := by
    obtain ⟨e', he', rfl⟩ := List.mem_map.mp he
    exact (h.sources e' he').sent
  fresh name hname := by
    rw [CompileRequest.sent, Table.keys_mapValues]
    exact h.fresh name hname

theorem sourcesJson_sent (r : CompileRequest) : r.sent.sourcesJson = r.sentSources := by
  rw [sourcesJson, sentSources, sourcesJson, CompileRequest.sent, Table.mapValues_mapValues,
    Table.mapValues_mapValues, funext SourceText.toJson_sent]

/-- The entries that are sent are those of the request as it is sent. -/
theorem entries_eq (r : CompileRequest) : r.entries = r.sent.rawEntries := by
  rw [rawEntries, sourcesJson_sent, sentSources, entries, rawEntries, Table.mapValues, List.map_cons,
    List.map_cons, List.map_cons, finiteOnly_object, finiteOnly_object]
  rfl

/-- **The document that is sent is accepted**, as the request as it is sent. -/
theorem ofJson_toJson {r : CompileRequest} (h : r.Proper) : ofJson r.toJson = .ok r.sent := by
  rw [toJson_eq, entries_eq]
  exact ofJson_rawEntries h.sent

/-- **The document of the request as it is sent is the same**, to the letter. -/
theorem toJson_sent (r : CompileRequest) : r.sent.toJson = r.toJson := by
  have hfinite : Finite r.toJson := finite_finiteOnly _
  rw [toJson_eq r.sent, entries, ← entries_eq, ← finiteOnly_object, ← toJson_eq]
  exact hfinite

/-- The request as it is compiled: as it is sent, with augmented settings. -/
def compiled (r : CompileRequest) : CompileRequest where
  language := r.language
  sources := r.sources.mapValues SourceText.sent
  settings := Settings.augment (r.settings.mapValues finiteOnly)
  extras := r.extras.mapValues finiteOnly

theorem Proper.compiled {r : CompileRequest} (h : r.Proper) : r.compiled.Proper where
  sources := h.sent.sources
  fresh := h.sent.fresh

/-- The document that is compiled is that of the request as it is compiled. -/
theorem document_eq_rawEntries (r : CompileRequest) : r.document = r.compiled.rawEntries := by
  obtain ⟨-, hlt, hst⟩ := names_distinct
  rw [document_eq, entries_eq, rawEntries, Table.put, if_neg hlt, Table.put, if_neg hst, Table.put, if_pos rfl]
  rfl

/-- The document that is compiled has no numbers that are not finite. -/
theorem finite_document (r : CompileRequest) : Finite (.object r.document) := by
  have hentries : Finite (.object r.entries) := finite_mapValues r.rawEntries
  rw [document_eq]
  exact hentries.put "settings" (Settings.finite_augment (Settings.finite_tableAt hentries "settings"))

/-- **The document for the request as it is compiled is the same**, to the letter. -/
theorem document_compiled (r : CompileRequest) : r.compiled.document = r.document := by
  have hentries : r.compiled.entries = r.document := by
    rw [entries, ← document_eq_rawEntries, r.finite_document.mapValues_eq]
  have hget : r.document.get? "settings" =
      some (.object (Settings.augment (Settings.tableAt r.entries "settings"))) := by
    rw [document_eq, Table.get?_put_self]
  rw [document_eq, hentries, tableAt_document, Settings.augment_augment]
  exact Table.put_of_get? hget

/-- **The document that is compiled is accepted**, as the request as it is compiled. -/
theorem ofJson_document {r : CompileRequest} (h : r.Proper) : ofJson (.object r.document) = .ok r.compiled := by
  rw [document_eq_rawEntries]
  exact ofJson_rawEntries h.compiled

end CompileRequest

end SolidityBuild
