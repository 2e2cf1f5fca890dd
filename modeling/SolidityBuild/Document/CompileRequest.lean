import SolidityBuild.Schema.Decoder

/-!
The document that asks the compiler to compile: a language, the texts of the sources by path, and the
settings. Entries that are not declared here are kept, at the level of the document and of each source,
and follow the declared ones in the document that is sent.
-/

set_option autoImplicit false

namespace SolidityBuild

open Schema

/-- The text of one source, which is never empty in a decoded document. -/
structure SourceText where
  content : Text
  extras : Table Json := []

namespace SourceText

/-- The declared field. -/
def contentField : Field := ⟨"content", none⟩

/-- Reads a source. -/
def decoder : Decoder SourceText :=
  model "SourceFile" fun t =>
    (fun content => ⟨content, undeclared [contentField] t⟩) <$>
      contentField.required t Decoder.nonEmptyText

/-- The document of a source. -/
def toJson (s : SourceText) : Json := document [("content", .text s.content)] s.extras

end SourceText

/-- A request to compile. -/
structure CompileRequest where
  language : Text
  sources : Table SourceText
  settings : Table Json
  extras : Table Json := []

namespace CompileRequest

/-- The language of a request that names none. -/
def defaultLanguage : Text := "Solidity"

def languageField : Field := ⟨"language", none⟩
def sourcesField : Field := ⟨"sources", none⟩
def settingsField : Field := ⟨"settings", none⟩

/-- Reads a request. -/
def decoder : Decoder CompileRequest :=
  model "CompilerInput" fun t =>
    (fun language sources settings =>
        ⟨language, sources, settings, undeclared [languageField, sourcesField, settingsField] t⟩) <$>
      languageField.withDefault t defaultLanguage Decoder.text <*>
      sourcesField.required t (Decoder.table SourceText.decoder) <*>
      settingsField.withDefault t [] Decoder.mapping

/-- The request that a document spells, or why it spells none. -/
def ofJson (j : Json) : Except Rejection CompileRequest := (decoder j).toExcept "CompilerInput"

/-- The document that is sent; numbers that are not finite become null. -/
def toJson (r : CompileRequest) : Json :=
  Json.finiteOnly <| document
    [("language", .text r.language),
      ("sources", .object (r.sources.mapValues SourceText.toJson)),
      ("settings", .object r.settings)] r.extras

end CompileRequest

end SolidityBuild
