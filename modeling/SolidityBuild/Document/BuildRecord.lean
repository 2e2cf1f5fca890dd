import SolidityBuild.Schema.Scalar

/-!
What a build framework leaves behind: a record of every compiler run (the long version of the compiler
and the request it was given), and the outcome of the whole run. Undeclared entries of a record are
kept; those of an outcome are not.
-/

set_option autoImplicit false

namespace SolidityBuild

open Schema

/-- One recorded compiler run. -/
structure BuildRecord where
  longVersion : Text
  input : Table Json
  extras : Table Json := []

namespace BuildRecord

def longVersionField : Field := ⟨"solcLongVersion", some "solc_long_version"⟩
def inputField : Field := ⟨"input", none⟩

/-- Reads a record. -/
def decoder : Decoder BuildRecord :=
  model "BuildInfo" fun t =>
    (fun longVersion input => ⟨longVersion, input, undeclared [longVersionField, inputField] t⟩) <$>
      longVersionField.required t Decoder.text <*>
      inputField.required t Decoder.mapping

/-- The record that a document spells, or why it spells none. -/
def ofJson (j : Json) : Except Rejection BuildRecord := (decoder j).toExcept "BuildInfo"

/-- The document of a record; an undeclared entry may take the place of a declared one. Numbers that
are not finite become null. -/
def toJson (r : BuildRecord) : Json :=
  let declared : Table Json :=
    [("solc_long_version", .text r.longVersion), ("input", .object r.input)]
  Json.finiteOnly (.object (Table.ofEntries (declared ++ r.extras)))

end BuildRecord

/-- The outcome of running a build framework. -/
structure FrameworkOutcome where
  success : Bool
  records : List BuildRecord := []
  /-- The error text, if there is one. -/
  complaint : Option Text := none

namespace FrameworkOutcome

def successField : Field := ⟨"success", none⟩
def recordsField : Field := ⟨"contents", none⟩
def complaintField : Field := ⟨"err", none⟩

/-- A run that failed, and why. -/
def failed (complaint : Text) : FrameworkOutcome := ⟨false, [], some complaint⟩

/-- A run that left records. -/
def succeeded (records : List BuildRecord) : FrameworkOutcome := ⟨true, records, none⟩

/-- Reads an outcome. -/
def decoder : Decoder FrameworkOutcome :=
  model "BuildInfoResult" fun t =>
    FrameworkOutcome.mk <$>
      successField.required t Decoder.truth <*>
      recordsField.withDefault t [] (Decoder.list BuildRecord.decoder) <*>
      complaintField.withDefault t none (Decoder.nullable Decoder.text)

/-- The outcome that a document spells, or why it spells none. -/
def ofJson (j : Json) : Except Rejection FrameworkOutcome := (decoder j).toExcept "BuildInfoResult"

/-- The document of an outcome. -/
def toJson (o : FrameworkOutcome) : Json :=
  .object [("success", .bool o.success), ("contents", .list (o.records.map BuildRecord.toJson)),
    ("err", match o.complaint with | some t => .text t | none => .null)]

end FrameworkOutcome

end SolidityBuild
