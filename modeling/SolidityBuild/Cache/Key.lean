import SolidityBuild.Digest.Sha256
import SolidityBuild.Json.Canonical
import SolidityBuild.Text.Utf8

/-!
The key of a document: the digest of its canonical text, and so the same for documents that differ in
the order of keys only. Every key owns two entries of a cache, one for the document itself and one for
the compiler's answer to it.
-/

set_option autoImplicit false

namespace SolidityBuild

namespace Cache

/-- The key of a document. A document with a lone surrogate has none. -/
def key (document : Json) : Except Text.SurrogateFault Text :=
  (Text.encodeUtf8 document.canonical).map sha256

/-- The name of the entry of the document with a given key. -/
def inputEntry (key : Text) : Text := "compile_config_" ++ key

/-- The name of the entry of the answer to the document with a given key. -/
def outputEntry (key : Text) : Text := "compile_output_" ++ key

end Cache

end SolidityBuild
