import SolidityBuild.Proofs.Document.Rereading
import SolidityBuild.Proofs.Schema.Acceptance

/-!
Which documents are requests, and what is sent of them. Three entries decide whether a document is a request, and
every other entry is carried along: what is sent has the declared entries in front, with those filled in that may be
left out, and behind them everything else as it stood. Only numbers that are not finite do not survive.
-/

set_option autoImplicit false

namespace SolidityBuild

open Schema Json

/-! ## Which documents are requests -/

/-- A source of a request: an object with a text that is not empty. -/
def SourceText.IsSource (j : Json) : Prop :=
  ∃ (t : Table Json) (content : Text), j = .object t ∧ t.get? "content" = some (.text content) ∧ content ≠ []

theorem SourceText.decoder_accepts_iff {j : Json} : (SourceText.decoder j).Accepts ↔ IsSource j := by
  rw [decoder, model_accepts_iff]
  refine exists_congr fun t => ?_
  rw [Decoded.accepts_map_iff, contentField, Field.required_accepts_iff]
  constructor
  · rintro ⟨rfl, x, hx, haccepts⟩
    obtain ⟨content, rfl, hcontent⟩ := Decoder.nonEmptyText_accepts_iff.mp haccepts
    exact ⟨content, rfl, hx, hcontent⟩
  · rintro ⟨content, rfl, hx, hcontent⟩
    exact ⟨rfl, _, hx, Decoder.nonEmptyText_accepts_iff.mpr ⟨content, rfl, hcontent⟩⟩

namespace CompileRequest

/-- The entries of a request: sources by path, and perhaps a language and settings. -/
structure IsRequest (t : Table Json) : Prop where
  sources : ∃ entries, t.get? "sources" = some (.object entries) ∧ ∀ e ∈ entries, SourceText.IsSource e.2
  language : t.get? "language" = none ∨ ∃ language, t.get? "language" = some (.text language)
  settings : t.get? "settings" = none ∨ ∃ settings, t.get? "settings" = some (.object settings)

/-- What may be left out is absent, or it is of its shape. -/
theorem withDefault_accepts_iff_absent_or {α : Type} {name : Text} {t : Table Json} {default : α} {d : Decoder α}
    {shape : α → Json} (hd : ∀ {j}, (d j).Accepts ↔ ∃ a, j = shape a) :
    (Field.withDefault ⟨name, none⟩ t default d).Accepts ↔
      t.get? name = none ∨ ∃ a, t.get? name = some (shape a) := by
  rw [Field.withDefault_accepts_iff]
  simp only [hd]
  cases t.get? name with
  | none => simp
  | some j => simp

theorem decoder_accepts_iff {document : Json} :
    (decoder document).Accepts ↔ ∃ t, document = .object t ∧ IsRequest t := by
  rw [decoder, model_accepts_iff]
  refine exists_congr fun t => and_congr_right fun _ => ?_
  rw [Decoded.accepts_seq_iff, Decoded.accepts_seq_iff, Decoded.accepts_map_iff, languageField, sourcesField,
    settingsField, withDefault_accepts_iff_absent_or Decoder.text_accepts_iff, Field.required_accepts_iff,
    withDefault_accepts_iff_absent_or Decoder.mapping_accepts_iff]
  constructor
  · rintro ⟨⟨hlanguage, x, hx, haccepts⟩, hsettings⟩
    obtain ⟨entries, rfl, hentries⟩ := Decoder.table_accepts_iff.mp haccepts
    exact ⟨⟨entries, hx, fun e he => SourceText.decoder_accepts_iff.mp (hentries e he)⟩, hlanguage, hsettings⟩
  · rintro ⟨⟨entries, hx, hentries⟩, hlanguage, hsettings⟩
    refine ⟨⟨hlanguage, _, hx, Decoder.table_accepts_iff.mpr ⟨entries, rfl, ?_⟩⟩, hsettings⟩
    exact fun e he => SourceText.decoder_accepts_iff.mpr (hentries e he)

end CompileRequest

/-! ## What is sent of them -/

/-- The source with its text in front of everything else. -/
def SourceText.contentFirst : Json → Json
  | .object t => .object (("content", (Table.get? t "content").getD .null) :: Table.without t ["content"])
  | j => j

theorem SourceText.toJson_of_decoder {j : Json} {s : SourceText} (h : SourceText.decoder j = .value s) :
    s.toJson = contentFirst j := by
  obtain ⟨t, rfl, hread⟩ := model_eq_value h
  obtain ⟨content, hcontent, rfl⟩ := Decoded.map_eq_value hread
  obtain ⟨x, hx, htext⟩ := Field.required_eq_value hcontent
  obtain rfl := Decoder.nonEmptyText_eq_value htext
  have hextras : undeclared [contentField] t = Table.without t ["content"] :=
    undeclared_eq_without (List.forall_mem_singleton.mpr rfl) t
  rw [toJson, document, contentFirst, hx, hextras]
  rfl

namespace CompileRequest

/-- The names of the declared entries, in the order in which they are sent. -/
def declaredNames : List Text := ["language", "sources", "settings"]

/-- The entries of a document with the declared ones in front of the others, and what may be left out filled in. The
texts of the sources are in front of what else is said of them. -/
def declaredFirst (t sources : Table Json) : Table Json :=
  ("language", (t.get? "language").getD (.text defaultLanguage)) ::
    ("sources", .object (sources.mapValues SourceText.contentFirst)) ::
    ("settings", (t.get? "settings").getD (.object [])) :: t.without declaredNames

/-- The keys are those of the document, and those that were filled in. -/
theorem mem_keys_declaredFirst {t : Table Json} (h : Text.ofString "sources" ∈ t.keys) (sources : Table Json)
    (key : Text) : key ∈ (declaredFirst t sources).keys ↔ key ∈ t.keys ∨ key = "language" ∨ key = "settings" := by
  have hkeys : (declaredFirst t sources).keys = declaredNames ++ (t.without declaredNames).keys := rfl
  have hdeclared : key ∈ declaredNames ↔ key = "language" ∨ key = "sources" ∨ key = "settings" := by
    simp only [declaredNames, List.mem_cons, List.not_mem_nil, or_false]
  rw [hkeys, List.mem_append, Table.mem_keys_without]
  constructor
  · rintro (hin | ⟨hin, -⟩)
    · rcases hdeclared.mp hin with rfl | rfl | rfl
      · exact .inr (.inl rfl)
      · exact .inl h
      · exact .inr (.inr rfl)
    · exact .inl hin
  · intro hin
    by_cases hname : key ∈ declaredNames
    · exact .inl hname
    · rcases hin with hin | rfl | rfl
      · exact .inr ⟨hin, hname⟩
      · exact absurd (hdeclared.mpr (.inl rfl)) hname
      · exact absurd (hdeclared.mpr (.inr (.inr rfl))) hname

theorem rawEntries_of_ofJson {t : Table Json} {r : CompileRequest} (h : ofJson (.object t) = .ok r) :
    ∃ sources : Table Json, t.get? "sources" = some (.object sources) ∧ r.rawEntries = declaredFirst t sources := by
  obtain ⟨t', ht', hread⟩ := model_eq_value (Decoded.toExcept_eq_ok h)
  obtain rfl := Json.object.inj ht'
  obtain ⟨g, settings, hg, hsettings, rfl⟩ := Decoded.seq_eq_value hread
  obtain ⟨g', sources, hg', hsources, rfl⟩ := Decoded.seq_eq_value hg
  obtain ⟨language, hlanguage, rfl⟩ := Decoded.map_eq_value hg'
  have hl : Json.text language = (t.get? "language").getD (.text defaultLanguage) := by
    rcases Field.withDefault_eq_value hlanguage with ⟨hnone, rfl⟩ | ⟨x, hx, htext⟩
    · rw [hnone, Option.getD_none]
    · rw [hx, Option.getD_some, Decoder.text_eq_value htext]
  have hs : Json.object settings = (t.get? "settings").getD (.object []) := by
    rcases Field.withDefault_eq_value hsettings with ⟨hnone, rfl⟩ | ⟨x, hx, hmapping⟩
    · rw [hnone, Option.getD_none]
    · rw [hx, Option.getD_some, Decoder.mapping_eq_value hmapping]
  have hextras : undeclared [languageField, sourcesField, settingsField] t = t.without declaredNames :=
    undeclared_eq_without (by simp [languageField, sourcesField, settingsField]) t
  obtain ⟨x, hx, htable⟩ := Field.required_eq_value hsources
  obtain ⟨entries, rfl, hentries⟩ := Decoder.table_eq_value htable
  -- the sources are written one by one, each under the path under which it was read
  have hsourcesJson : sources.mapValues SourceText.toJson = Table.mapValues SourceText.contentFirst entries := by
    refine (map_eq_map_iff_forall₂.mpr (hentries.imp fun e f hef => ?_)).symm
    rw [hef.1, SourceText.toJson_of_decoder hef.2]
  refine ⟨entries, hx, ?_⟩
  rw [rawEntries, sourcesJson, declaredFirst, ← hl, ← hs, hsourcesJson, hextras]

/-- **Requests are read from exactly the documents of their shape, and nothing of a document is lost.** What is sent
is the document with the declared entries first and with numbers that are not finite replaced; its keys are those of
the document and of what may be left out; and read as a request of its own it is sent as the same document. -/
theorem ofJson_accepts_exactly_and_keeps (document : Json) :
    ((∃ r, ofJson document = .ok r) ↔ ∃ t, document = .object t ∧ IsRequest t) ∧
    ∀ (t : Table Json) r, document = .object t → ofJson document = .ok r →
      ∃ sources sent : Table Json, t.get? "sources" = some (.object sources) ∧ r.toJson = .object sent ∧
        sent = (declaredFirst t sources).mapValues finiteOnly ∧
        (∀ key, key ∈ sent.keys ↔ key ∈ t.keys ∨ key = "language" ∨ key = "settings") ∧
        ∃ r', ofJson r.toJson = .ok r' ∧ r'.toJson = r.toJson := by
  constructor
  · rw [← decoder_accepts_iff]
    exact exists_congr fun r => Decoded.toExcept_eq_ok_iff
  · rintro t r rfl hr
    obtain ⟨sources, hsources, hentries⟩ := rawEntries_of_ofJson hr
    have hkey : Text.ofString "sources" ∈ t.keys := Table.mem_keys_of_mem (Table.mem_of_get? hsources)
    refine ⟨sources, _, hsources, toJson_eq r, by rw [entries, hentries], ?_, ?_⟩
    · intro key
      rw [entries, hentries, Table.keys_mapValues]
      exact mem_keys_declaredFirst hkey sources key
    · exact ⟨r.sent, ofJson_toJson (proper_of_ofJson hr), toJson_sent r⟩

/-- A request that names no language and no settings, with entries of its own at every level, one of which is not a
number. -/
def annotated : Table Json :=
  [("note", .list [.object [("rate", .float .nan), ("n", .int 1)]]),
    ("sources", .object
      [("b.sol", .object [("keccak256", .null), ("content", .text "contract B {}"), ("urls", .list [])]),
        ("a.sol", .object [("content", .text "contract A {}")])])]

/-- The declared entries come first, the others after them as they stood, and what is not a number is null. -/
theorem ofJson_accepts_exactly_and_keeps_annotated : ∃ r, ofJson (.object annotated) = .ok r ∧
    r.toJson = .object
      [("language", .text "Solidity"),
        ("sources", .object
          [("b.sol", .object [("content", .text "contract B {}"), ("keccak256", .null), ("urls", .list [])]),
            ("a.sol", .object [("content", .text "contract A {}")])]),
        ("settings", .object []),
        ("note", .list [.object [("rate", .null), ("n", .int 1)]])] ∧
    ∃ r', ofJson r.toJson = .ok r' ∧ r'.toJson = r.toJson := by
  obtain ⟨r, hr⟩ : ∃ r, ofJson (.object annotated) = .ok r := ⟨_, rfl⟩
  obtain ⟨sources, sent, hsources, hsent, rfl, -, hagain⟩ :=
    (ofJson_accepts_exactly_and_keeps (.object annotated)).2 annotated r rfl hr
  obtain rfl := Json.object.inj (Option.some.inj hsources)
  exact ⟨r, hr, hsent, hagain⟩

end CompileRequest

end SolidityBuild
