import SolidityBuild.Number.Decimal

/-!
What can be wrong with a document. A fault says where (a path of keys and indices) and what (a
complaint); a rejection names the kind of document that was expected and lists all faults, in the
order in which the fields are declared.
-/

set_option autoImplicit false

namespace SolidityBuild

namespace Schema

/-- One step from a value to a part of it. -/
inductive PathStep where
  | key (name : Text)
  | index (place : Nat)
deriving DecidableEq, Repr

/-- What a value is not. -/
inductive Complaint where
  | missing
  | notText
  | tooShort
  | notMapping
  | notList
  | notModel (name : Text)
  | notTagged
  | noTag (tagKey : Text)
  | unknownTag (tagKey tag : Text) (expected : List Text)
  | notInteger
  | unreadableInteger
  | integerTooLarge
  | fractional
  | notFinite
  | notTruth
  | unreadableTruth
deriving DecidableEq, Repr

/-- The wording of a complaint. -/
def Complaint.message : Complaint → Text
  | missing => "Field required"
  | notText => "Input should be a valid string"
  | tooShort => "String should have at least 1 character"
  | notMapping => "Input should be a valid dictionary"
  | notList => "Input should be a valid list"
  | notModel name => "Input should be a valid dictionary or instance of " ++ name
  | notTagged => "Input should be a valid dictionary or object to extract fields from"
  | noTag tagKey => "Unable to extract tag using discriminator '" ++ tagKey ++ "'"
  | unknownTag tagKey tag expected =>
    "Input tag '" ++ tag ++ "' found using '" ++ tagKey ++
      "' does not match any of the expected tags: " ++
      Text.join ", " (expected.map fun t => "'" ++ t ++ "'")
  | notInteger => "Input should be a valid integer"
  | unreadableInteger => "Input should be a valid integer, unable to parse string as an integer"
  | integerTooLarge => "Unable to parse input string as an integer, exceeded maximum size"
  | fractional => "Input should be a valid integer, got a number with a fractional part"
  | notFinite => "Input should be a finite number"
  | notTruth => "Input should be a valid boolean"
  | unreadableTruth => "Input should be a valid boolean, unable to interpret input"

/-- The short name of a complaint. -/
def Complaint.code : Complaint → Text
  | missing => "missing"
  | notText => "string_type"
  | tooShort => "string_too_short"
  | notMapping => "dict_type"
  | notList => "list_type"
  | notModel _ => "model_type"
  | notTagged => "model_attributes_type"
  | noTag _ => "union_tag_not_found"
  | unknownTag .. => "union_tag_invalid"
  | notInteger => "int_type"
  | unreadableInteger => "int_parsing"
  | integerTooLarge => "int_parsing_size"
  | fractional => "int_from_float"
  | notFinite => "finite_number"
  | notTruth => "bool_type"
  | unreadableTruth => "bool_parsing"

/-- A complaint about the part of a document that a path leads to. -/
structure Fault where
  path : List PathStep
  complaint : Complaint
deriving DecidableEq, Repr

/-- A step in a message; a key that holds a point is put between grave accents. -/
def PathStep.message : PathStep → Text
  | key name => if name.contains '.' then [(96 : CodePoint)] ++ name ++ [96] else name
  | index place => Text.ofNat place

/-- A fault in a message: its path, if it has one, on a line of its own, and the complaint. -/
def Fault.message (f : Fault) : Text :=
  let place : Text :=
    if f.path = [] then [] else "\n" ++ Text.join "." (f.path.map PathStep.message)
  place ++ "\n  " ++ f.complaint.message ++ " [type=" ++ f.complaint.code ++ "]"

/-- A document that is not of the expected kind. -/
structure Rejection where
  expected : Text
  faults : List Fault
deriving DecidableEq, Repr

/-- The message of a rejection. -/
def Rejection.message (r : Rejection) : Text :=
  let count := r.faults.length
  Text.ofNat count ++ (if count = 1 then " validation error for " else " validation errors for ") ++
    r.expected ++ r.faults.flatMap Fault.message

end Schema

end SolidityBuild
