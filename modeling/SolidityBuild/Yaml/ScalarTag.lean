import SolidityBuild.Text.Basic
import SolidityBuild.Number.Decimal

/-!
What a plain scalar stands for. A text that looks like a number, a truth value, a moment in time or
nothing is one, unless it is quoted or tagged; every other text is a text. A line feed at the very end
of a text does not count.
-/

set_option autoImplicit false

namespace SolidityBuild

namespace Yaml

/-- The digits of a base, and underscores between them. -/
def isBinaryRun (t : Text) : Bool := t.all fun c => c.val = 48 || c.val = 49 || c.val = 95
def isOctalRun (t : Text) : Bool := t.all fun c => (48 ≤ c.val && c.val ≤ 55) || c.val = 95
def isHexRun (t : Text) : Bool := t.all fun c => c.hexValue?.isSome || c.val = 95
def isDecimalPoint (c : CodePoint) : Bool := c.isDigit || c.val = 95
def isDecimalRun (t : Text) : Bool := t.all isDecimalPoint

/-- The text without a sign in front. -/
def unsigned : Text → Text
  | [] => []
  | c :: t => if c.val = 43 ∨ c.val = 45 then t else c :: t

/-- A number below sixty, of one digit or two. -/
def isSixtieth : Text → Bool
  | [c] => c.isDigit
  | [c, d] => 48 ≤ c.val && c.val ≤ 53 && d.isDigit
  | _ => false

/-- A run that starts with a digit. -/
def startsWithDigit : Text → Bool
  | c :: _ => c.isDigit
  | [] => false

/-- Whether a text, without its sign, is a whole number. -/
def isWhole (t : Text) : Bool :=
  match Text.after? "0b" t, Text.after? "0x" t, t with
  | some (c :: rest), _, _ => isBinaryRun (c :: rest)
  | _, some (c :: rest), _ => isHexRun (c :: rest)
  | _, _, [] => false
  | _, _, c :: rest =>
    if c.val = 48 then isOctalRun rest
    else
      match Text.splitOn 58 t with
      | [] => false
      | first :: others => startsWithDigit first && isDecimalRun first && others.all isSixtieth

/-- Whether a text is an exponent with its sign, or empty. -/
def isExponent : Text → Bool
  | [] => true
  | e :: s :: digits =>
    (e.val = 101 || e.val = 69) && (s.val = 43 || s.val = 45) && Text.isDigits digits
  | _ => false

/-- Whether a text is the part of a number behind its point. -/
def isFraction (t : Text) : Bool := isExponent (t.dropWhile isDecimalPoint)

/-- The words for values that are not finite, in three cases. -/
def infinityWords : List Text := [".inf", ".Inf", ".INF"]
def nanWords : List Text := [".nan", ".NaN", ".NAN"]

/-- Whether a text is a number with a point. -/
def isPointed (t : Text) : Bool :=
  let u := unsigned t
  infinityWords.contains u || nanWords.contains t ||
    match Text.splitAt? "." u with
    | none => false
    | some ([], after) => u = t && startsWithDigit after && isFraction after
    | some (before, after) =>
      match Text.splitOn 58 before with
      | [] => false
      | [first] => startsWithDigit first && isDecimalRun first && isFraction after
      | first :: others =>
        startsWithDigit first && isDecimalRun first && others.all isSixtieth && isDecimalRun after

/-- The words for truth values, in three cases. -/
def truthWords : List Text := [
  "yes", "Yes", "YES", "no", "No", "NO", "true", "True", "TRUE", "false", "False", "FALSE",
  "on", "On", "ON", "off", "Off", "OFF"]

/-- The words for nothing. -/
def nullWords : List Text := ["", "~", "null", "Null", "NULL"]

/-! ## Moments in time -/

/-- A time of day, with an offset from universal time in minutes if one is written in digits. -/
structure Clock where
  hour : Nat
  minute : Nat
  second : Nat
  offset : Option Int
deriving DecidableEq, Repr

/-- A moment as it is written: a day, and perhaps a time of day. -/
structure Moment where
  year : Nat
  month : Nat
  day : Nat
  clock : Option Clock
deriving DecidableEq, Repr

/-- Between `least` and `most` digits in front of a text, as many as there are, and the rest. -/
def digits? (least most : Nat) (t : Text) : Option (Nat × Text) :=
  let run := (t.take most).takeWhile CodePoint.isDigit
  if least ≤ run.length then some (Text.digitsValue run, t.drop run.length) else none

/-- What follows a code point of the given number. -/
def afterPoint? (n : Nat) : Text → Option Text
  | c :: t => if c.val = n then some t else none
  | [] => none

/-- The text without blanks in front. -/
def skipBlanks (t : Text) : Text := t.dropWhile fun c => c.val = 32 || c.val = 9

/-- The offset that a text spells: universal time, or hours and perhaps minutes with a sign. -/
def offset? (t : Text) : Option (Option Int) :=
  match t with
  | [] => none
  | c :: rest =>
    if c.val = 90 ∧ rest = [] then some none
    else if c.val = 43 ∨ c.val = 45 then do
      let (hours, rest) ← digits? 1 2 rest
      let (minutes, rest) ← match afterPoint? 58 rest with
        | none => some (0, rest)
        | some rest => digits? 2 2 rest
      let total : Int := hours * 60 + minutes
      if rest = [] then some (some (if c.val = 45 then -total else total)) else none
    else none

/-- The time of day that a text spells. -/
def clock? (t : Text) : Option Clock := do
  let (hour, t) ← digits? 1 2 t
  let (minute, t) ← digits? 2 2 (← afterPoint? 58 t)
  let (second, t) ← digits? 2 2 (← afterPoint? 58 t)
  let t := match afterPoint? 46 t with
    | some t => t.dropWhile CodePoint.isDigit
    | none => t
  if t = [] then pure ⟨hour, minute, second, none⟩
  else
    let offset ← offset? (skipBlanks t)
    pure ⟨hour, minute, second, offset⟩

/-- The moment that a text spells. -/
def moment? (t : Text) : Option Moment := do
  let (year, t) ← digits? 4 4 t
  let (month, t) ← digits? 1 2 (← afterPoint? 45 t)
  let (day, t) ← digits? 1 2 (← afterPoint? 45 t)
  match t with
  | [] => pure ⟨year, month, day, none⟩
  | c :: rest =>
    let rest ←
      if c.val = 84 ∨ c.val = 116 then some rest
      else if c.val = 32 ∨ c.val = 9 then some (skipBlanks rest)
      else none
    let clock ← clock? rest
    pure ⟨year, month, day, some clock⟩

/-- The length of a day with two digits for month and day. -/
def dayLength : Nat := 10

/-- Whether a plain text is a moment: without a time of day, month and day must have two digits. -/
def isMoment (t : Text) : Bool :=
  match moment? t with
  | some m => m.clock.isSome || t.length = dayLength
  | none => false

/-! ## Tags -/

/-- What a plain scalar may stand for. -/
inductive ScalarTag where
  | truth
  | float
  | integer
  | merge
  | null
  | moment
  | value
  | reference
  | text
deriving DecidableEq, Repr

namespace ScalarTag

/-- What all tags of the standard begin with. -/
def standard : Text := "tag:yaml.org,2002:"

/-- The short name of a tag. -/
def shortName : ScalarTag → Text
  | truth => "bool"
  | float => "float"
  | integer => "int"
  | merge => "merge"
  | null => "null"
  | moment => "timestamp"
  | value => "value"
  | reference => "yaml"
  | text => "str"

/-- A tag in full. -/
def full (tag : ScalarTag) : Text := standard ++ tag.shortName

/-- What a plain text stands for. -/
def ofText (t : Text) : ScalarTag :=
  if truthWords.contains t then truth
  else if isPointed t then float
  else if isWhole (unsigned t) then integer
  else if t = ("<<" : Text) then merge
  else if nullWords.contains t then null
  else if isMoment t then moment
  else if t = ("=" : Text) then value
  else if t = ("!" : Text) ∨ t = ("&" : Text) ∨ t = ("*" : Text) then reference
  else text

/-- What a plain text stands for, a line feed at its end not counted. -/
def ofPlain (t : Text) : ScalarTag :=
  if t = [10] then text else ofText (if t.getLast? = some 10 then t.dropLast else t)

end ScalarTag

end Yaml

end SolidityBuild
