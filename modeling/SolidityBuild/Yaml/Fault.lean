import SolidityBuild.Json.Parser
import SolidityBuild.Text.Quoted

/-!
Why a text is no YAML document. Most faults say that the text is malformed in one of a few ways; the
others lie in a scalar that is well formed but does not spell a value of its type.
-/

set_option autoImplicit false

namespace SolidityBuild

namespace Yaml

/-- How a text is malformed. -/
inductive Malformation where
  | unprintable
  | unexpectedStart
  | missingColon
  | misplacedEntry
  | misplacedKey
  | misplacedValue
  | unbalancedFlow
  | badDirective
  | badName
  | badTag
  | badBlockHeader
  | unterminatedText
  | unknownEscape
  | missingDocumentStart
  | missingContent
  | missingBlockEnd
  | missingSeparator
  | unknownHandle
  | duplicateAnchor
  | unknownAlias
  | severalDocuments
  | unknownTag
  | wrongKind
  | unhashableKey
  | badMerge
  | badOctets
deriving DecidableEq, Repr

/-- The wording of a malformation. -/
def Malformation.message : Malformation → Text
  | unprintable => "special characters are not allowed"
  | unexpectedStart => "found a character that cannot start any token"
  | missingColon => "could not find expected ':'"
  | misplacedEntry => "sequence entries are not allowed here"
  | misplacedKey => "mapping keys are not allowed here"
  | misplacedValue => "mapping values are not allowed here"
  | unbalancedFlow => "found a closing bracket without an opening one"
  | badDirective => "found a directive that cannot be read"
  | badName => "expected a name of letters, digits, '-' and '_'"
  | badTag => "found a tag that cannot be read"
  | badBlockHeader => "expected chomping or indentation indicators"
  | unterminatedText => "found unexpected end of a quoted scalar"
  | unknownEscape => "found unknown escape character"
  | missingDocumentStart => "expected '<document start>'"
  | missingContent => "expected the node content"
  | missingBlockEnd => "expected <block end>"
  | missingSeparator => "expected ',' or a closing bracket"
  | unknownHandle => "found undefined tag handle"
  | duplicateAnchor => "found duplicate anchor"
  | unknownAlias => "found undefined alias"
  | severalDocuments => "expected a single document in the stream"
  | unknownTag => "could not determine a constructor for the tag"
  | wrongKind => "found a node of another kind than its tag asks for"
  | unhashableKey => "found unhashable key"
  | badMerge => "expected a mapping or list of mappings for merging"
  | badOctets => "failed to decode base64 data"

/-- A part of a moment in time. -/
inductive MomentPart where
  | year
  | month
  | day
  | hour
  | minute
  | second
deriving DecidableEq, Repr

/-- The message about a part that is out of its range. -/
def MomentPart.message : MomentPart → Text
  | year => "year 0 is out of range"
  | month => "month must be in 1..12"
  | day => "day is out of range for month"
  | hour => "hour must be in 0..23"
  | minute => "minute must be in 0..59"
  | second => "second must be in 0..59"

/-- Why a text is no document. -/
inductive Fault where
  | malformed (how : Malformation)
  | notInteger (base : Nat) (written : Text)
  | tooManyDigits (digits : Nat)
  | notFloat (written : Text)
  /-- A floating-point number in parts, the first of which weighs more than any such number. -/
  | weightTooLarge
  | emptyNumber
  | notTruth (written : Text)
  | notMoment
  | outOfRange (part : MomentPart)
  /-- An offset from universal time of a whole day or more, as days and seconds. -/
  | offsetTooLarge (days : Int) (seconds : Nat)
  /-- An escape beyond the last code point. -/
  | noCodePoint (number : Nat)
deriving DecidableEq, Repr

/-- The greatest length at which a text is quoted in full in a message about a whole number. -/
def quoteLimit : Nat := 200

/-- The greatest number that a machine integer can hold. -/
def machineLimit : Nat := 0x80000000

/-- The message of a fault. -/
def Fault.message : Fault → Text
  | malformed how => how.message
  | notInteger base written =>
    "invalid literal for int() with base " ++ Text.ofNat base ++ ": " ++ written.quoted.take quoteLimit
  | tooManyDigits digits => (Json.ReadFault.tooManyDigits digits).message
  | notFloat written => "could not convert string to float: " ++ written.quoted
  | weightTooLarge => "int too large to convert to float"
  | emptyNumber => "string index out of range"
  | notTruth written => written.quoted
  | notMoment => "'NoneType' object has no attribute 'groupdict'"
  | outOfRange part => part.message
  | offsetTooLarge days seconds =>
    "offset must be a timedelta strictly between -timedelta(hours=24) and timedelta(hours=24), not " ++
      "datetime.timedelta(days=" ++ Text.ofInt days ++
      (if seconds = 0 then ([] : Text) else ", seconds=" ++ Text.ofNat seconds) ++ ")."
  | noCodePoint number =>
    if number < machineLimit then "chr() arg not in range(0x110000)"
    else "Python int too large to convert to C int"

end Yaml

end SolidityBuild
