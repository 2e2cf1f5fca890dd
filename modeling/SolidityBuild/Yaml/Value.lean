import SolidityBuild.Text.Digits
import SolidityBuild.Text.Lines
import SolidityBuild.Yaml.Fault
import SolidityBuild.Yaml.ScalarTag

/-!
The values of scalars. A tag says how the text of a scalar is read; a text that was given its tag by hand
need not spell a value of that kind, and then the reading fails.
-/

set_option autoImplicit false

namespace SolidityBuild

namespace Yaml

/-- A value, as far as its reader tells values apart. -/
inductive Value where
  | null
  | truth (b : Bool)
  | integer (n : Int)
  | float
  | text (t : Text)
  | octets
  | moment
  | collection
deriving DecidableEq, Repr

/-! ## Numbers -/

/-- The text without underscores. -/
def withoutUnderscores (t : Text) : Text := t.filter fun c => c.val ≠ 95

/-- A digit of any script as the digit of ASCII. -/
def plainDigit (c : CodePoint) : CodePoint :=
  match c.decimalValue? with
  | some n => CodePoint.ofDigit n
  | none => c

/-- The text without blanks around it and with plain digits. -/
def plainNumber (t : Text) : Text := t.trim.map plainDigit

/-- Whether a sign stands in front of a text that turns the number around. -/
def isNegative (t : Text) : Bool := t.head? = some 45

/-- The letter that may stand behind a zero in front of a number of a base. -/
def baseLetter? (base : Nat) : Option CodePoint :=
  if base = 2 then some 98 else if base = 8 then some 111 else if base = 16 then some 120 else none

/-- The text without the mark of a base. -/
def withoutBase (base : Nat) (t : Text) : Text :=
  match t with
  | z :: letter :: rest =>
    if z.val = 48 ∧ baseLetter? base = some letter.toLower then rest else t
  | _ => t

/-- The value of a digit of a base. -/
def baseDigit? (base : Nat) (c : CodePoint) : Option Nat := c.hexValue?.filter fun n => n < base

/-- The whole number that a text spells in a base. -/
def wholeNumber (base : Nat) (written : Text) : Except Fault Int :=
  let t := plainNumber written
  let digits := withoutBase base (unsigned t)
  let values := digits.filterMap (baseDigit? base)
  let run := (digits.takeWhile fun c => (baseDigit? base c).isSome).length
  if base = 10 ∧ Json.digitLimit < run then .error (.tooManyDigits run)
  else if digits = [] ∨ values.length ≠ digits.length then .error (.notInteger base written)
  else
    let n : Int := ofDigits base values
    .ok (if isNegative t then -n else n)

/-- The whole number that parts to the base of sixty spell. -/
def sixties (parts : List Int) : Int := parts.foldl (fun n part => n * 60 + part) 0

/-- Reads a whole number: with a sign, in base two, eight or sixteen, or in parts to the base of sixty. -/
def readInteger (text : Text) : Except Fault Int :=
  let t := withoutUnderscores text
  let u := unsigned t
  let sign : Int := if isNegative t then -1 else 1
  match u with
  | [] => .error .emptyNumber
  | c :: rest =>
    let magnitude : Except Fault Int :=
      if u = ("0" : Text) then .ok 0
      else match Text.after? "0b" u, Text.after? "0x" u with
        | some digits, _ => wholeNumber 2 digits
        | _, some digits => wholeNumber 16 digits
        | none, none =>
          if c.val = 48 then wholeNumber 8 (c :: rest)
          else if u.contains 58 then ((Text.splitOn 58 u).mapM (wholeNumber 10)).map sixties
          else wholeNumber 10 u
    magnitude.map fun n => sign * n

/-- The words for floating-point values that are not finite. -/
def nonFiniteWords : List Text := ["inf", "infinity", "nan"]

/-- Whether a text is an exponent, with or without a sign, or empty. -/
def isLooseExponent : Text → Bool
  | [] => true
  | e :: rest => e.val = 101 && Text.isDigits (unsigned rest)

/-- Whether a text in lower case spells a floating-point value. -/
def isFloat (written : Text) : Bool :=
  let t := unsigned (plainNumber written)
  if nonFiniteWords.contains t then true
  else
    let whole := t.takeWhile CodePoint.isDigit
    let rest := t.drop whole.length
    match afterPoint? 46 rest with
    | none => !whole.isEmpty && isLooseExponent rest
    | some rest =>
      let decimals := rest.takeWhile CodePoint.isDigit
      !(whole ++ decimals).isEmpty && isLooseExponent (rest.drop decimals.length)

/-- The most parts to the base of sixty of which each weighs no more than a floating-point number can. -/
def partLimit : Nat := 174

/-- Reads a floating-point number, perhaps in parts to the base of sixty. -/
def readFloat (text : Text) : Except Fault Unit :=
  let u := unsigned (withoutUnderscores text).toLower
  if withoutUnderscores text = [] then .error .emptyNumber
  else if u = (".inf" : Text) ∨ u = (".nan" : Text) then .ok ()
  else
    let parts := if u.contains 58 then Text.splitOn 58 u else [u]
    match parts.find? fun part => !isFloat part with
    | some part => .error (.notFloat part)
    | none => if partLimit < parts.length then .error .weightTooLarge else .ok ()

/-! ## Truth values, moments and octets -/

/-- The words for true and for false. -/
def trueWords : List Text := ["yes", "true", "on"]
def falseWords : List Text := ["no", "false", "off"]

/-- Reads a truth value, in any case. -/
def readTruth (text : Text) : Except Fault Bool :=
  let word := text.toLower
  if trueWords.contains word then .ok true
  else if falseWords.contains word then .ok false
  else .error (.notTruth word)

/-- Whether a year has a leap day. -/
def isLeap (year : Nat) : Bool := year % 4 = 0 && (year % 100 ≠ 0 || year % 400 = 0)

/-- The number of days of a month. -/
def daysOfMonth (year month : Nat) : Nat :=
  if month = 2 then if isLeap year then 29 else 28
  else if [4, 6, 9, 11].contains month then 30 else 31

/-- The part of a day that is out of its range. -/
def dayFault? (m : Moment) : Option MomentPart :=
  if m.year = 0 then some .year
  else if m.month = 0 ∨ 12 < m.month then some .month
  else if m.day = 0 ∨ daysOfMonth m.year m.month < m.day then some .day
  else none

/-- The part of a time of day that is out of its range. -/
def clockFault? (c : Clock) : Option MomentPart :=
  if 23 < c.hour then some .hour
  else if 59 < c.minute then some .minute
  else if 59 < c.second then some .second
  else none

/-- The minutes of a day. -/
def dayMinutes : Int := 1440

/-- Checks that an offset from universal time is less than a day. -/
def checkOffset (c : Clock) : Except Fault Unit :=
  match c.offset with
  | none => .ok ()
  | some minutes =>
    if minutes.natAbs < dayMinutes.natAbs then .ok ()
    else .error (.offsetTooLarge (minutes.fdiv dayMinutes) ((minutes.fmod dayMinutes).toNat * 60))

/-- Reads a moment in time. -/
def readMoment (text : Text) : Except Fault Unit :=
  match moment? (if text.getLast? = some 10 then text.dropLast else text) with
  | none => .error .notMoment
  | some m => do
    match m.clock with
    | some c => checkOffset c
    | none => pure ()
    match (dayFault? m).or (m.clock.bind clockFault?) with
    | some part => .error (.outOfRange part)
    | none => pure ()

/-- How far the reading of octets in base 64 has come. -/
structure Sixtyfour where
  /-- The number of digits since the last full group of four. -/
  place : Nat := 0
  pads : Nat := 0
  done : Bool := false

/-- Whether a code point is a digit of base 64. -/
def isSixtyfourth (c : CodePoint) : Bool :=
  c.isDigit || c.isUpper || c.isLower || c.val = 43 || c.val = 47

/-- Reads one code point of octets in base 64. Everything that is no digit and no padding is left out. -/
def Sixtyfour.step (s : Sixtyfour) (c : CodePoint) : Sixtyfour :=
  if s.done then s
  else if c.val = 61 then
    if 2 ≤ s.place then
      if 4 ≤ s.place + s.pads + 1 then { s with done := true } else { s with pads := s.pads + 1 }
    else s
  else if isSixtyfourth c then ⟨(s.place + 1) % 4, 0, false⟩
  else s

/-- Whether a text spells octets in base 64: ASCII only, and a last group that is full or padded. -/
def isOctets (t : Text) : Bool :=
  let s := t.foldl Sixtyfour.step {}
  t.all (fun c => c.val < 128) && (s.done || s.place = 0)

/-! ## Scalars -/

/-- Reads the text of a scalar as its tag says. Texts of tags that are not for scalars have no value. -/
def readScalar (tag text : Text) : Except Fault Value :=
  if tag = ScalarTag.text.full then .ok (.text text)
  else if tag = ScalarTag.null.full then .ok .null
  else if tag = ScalarTag.truth.full then (readTruth text).map .truth
  else if tag = ScalarTag.integer.full then (readInteger text).map .integer
  else if tag = ScalarTag.float.full then (readFloat text).map fun _ => .float
  else if tag = ScalarTag.moment.full then (readMoment text).map fun _ => .moment
  else if tag = ScalarTag.standard ++ ("binary" : Text) then
    if isOctets text then .ok .octets else .error (.malformed .badOctets)
  else .error (.malformed .unknownTag)

end Yaml

end SolidityBuild
