import SolidityBuild.Schema.Decoder
import SolidityBuild.Json.Parser

/-!
Lenient decoding of whole numbers and truth values: a whole number may also be written as a truth
value, as a floating-point number without fraction, or as a text; a truth value as a number zero or
one, or as one of a few words.
-/

set_option autoImplicit false

namespace SolidityBuild

namespace Schema

/-- The digits of a written number: an underscore may stand between two digits. -/
def separatedDigits? : Text → Option Text
  | [] => none
  | [c] => if c.isDigit then some [c] else none
  | c :: d :: rest =>
    if !c.isDigit then none
    else if d = '_' then (separatedDigits? rest).map (c :: ·)
    else (separatedDigits? (d :: rest)).map (c :: ·)

/-- The whole number that a text spells: surrounding white space, a sign, digits, and a fraction of
zeros are allowed. -/
def readInteger? (t : Text) : Option Int :=
  let t := t.trimWhiteSpace
  let (negative, t) : Bool × Text :=
    match t with
    | s :: rest => if s = '-' then (true, rest) else if s = '+' then (false, rest) else (false, t)
    | [] => (false, [])
  let whole := t.takeWhile fun c : CodePoint => c ≠ '.'
  let isWhole :=
    match t.dropWhile fun c : CodePoint => c ≠ '.' with
    | [] => true
    | _ :: zeros => !zeros.isEmpty && zeros.all fun c : CodePoint => c = '0'
  if isWhole then
    (separatedDigits? whole).map fun digits =>
      let n : Int := Text.digitsValue digits
      if negative then -n else n
  else none

/-- The first whole number above those of 64 bits with a sign. -/
def wordLimit : Int := 0x8000000000000000

/-- The whole number that a floating-point number is, within 64 bits. -/
def integerOfFloat (x : Binary64) : Decoded Int :=
  match x.units? with
  | none => .fail .notFinite
  | some _ =>
    match x.toInt? with
    | none => .fail .fractional
    | some n => if -wordLimit < n ∧ n < wordLimit then .value n else .fail .integerTooLarge

namespace Decoder

/-- Whole numbers, leniently. -/
def integer : Decoder Int
  | .int n => .value n
  | .bool b => .value (if b then 1 else 0)
  | .float x => integerOfFloat x
  | .text t =>
    if Json.digitLimit < t.length then .fail .integerTooLarge
    else match readInteger? t with
      | some n => .value n
      | none => .fail .unreadableInteger
  | _ => .fail .notInteger

/-- The words for true and for false, in lower case. -/
def truthWords : List Text × List Text :=
  (["1", "true", "t", "yes", "y", "on"], ["0", "false", "f", "no", "n", "off"])

/-- The truth value of a whole number. -/
def truthOfInt (n : Int) : Decoded Bool :=
  if n = 0 then .value false else if n = 1 then .value true else .fail .unreadableTruth

/-- Truth values, leniently. -/
def truth : Decoder Bool
  | .bool b => .value b
  | .int n => if -wordLimit ≤ n ∧ n < wordLimit then truthOfInt n else .fail .notTruth
  | .float x =>
    match integerOfFloat x with
    | .value n => truthOfInt n
    | .faulty _ => .fail .notTruth
  | .text t =>
    let word := t.toLower
    if truthWords.1.contains word then .value true
    else if truthWords.2.contains word then .value false
    else .fail .unreadableTruth
  | _ => .fail .notTruth

end Decoder

end Schema

end SolidityBuild
