import SolidityBuild.Json.Basic
import SolidityBuild.Text.Lines

/-!
Reading JSON text. Besides the standard grammar the words `NaN`, `Infinity` and `-Infinity` are read,
a lone surrogate may be escaped, a repeated key keeps its first place and takes its last value, and a
number with a fraction or an exponent is a floating-point one. A fault carries what is left of the
text where it arose, so that its place is the length of the whole less the length of that rest.
-/

set_option autoImplicit false

namespace SolidityBuild

namespace Json

/-- Why a text is not JSON. -/
inductive SyntaxReason where
  | byteOrderMark
  | expectingValue
  | expectingName
  | expectingColon
  | expectingComma
  | unterminatedText
  | controlCharacter
  | invalidEscape
  | invalidUnicodeEscape
  | extraData
deriving DecidableEq, Repr

/-- The wording of a reason. -/
def SyntaxReason.message : SyntaxReason → Text
  | byteOrderMark => "Unexpected UTF-8 BOM (decode using utf-8-sig)"
  | expectingValue => "Expecting value"
  | expectingName => "Expecting property name enclosed in double quotes"
  | expectingColon => "Expecting ':' delimiter"
  | expectingComma => "Expecting ',' delimiter"
  | unterminatedText => "Unterminated string starting at"
  | controlCharacter => "Invalid control character at"
  | invalidEscape => "Invalid \\escape"
  | invalidUnicodeEscape => "Invalid \\uXXXX escape"
  | extraData => "Extra data"

/-- A text that is not JSON: why, and where, counted in code points, in lines and in columns. -/
structure SyntaxFault where
  reason : SyntaxReason
  position : Nat
  line : Nat
  column : Nat
deriving DecidableEq, Repr

/-- The message of a fault. -/
def SyntaxFault.message (f : SyntaxFault) : Text :=
  f.reason.message ++ ": line " ++ Text.ofNat f.line ++ " column " ++ Text.ofNat f.column ++
    " (char " ++ Text.ofNat f.position ++ ")"

/-- Why a text was not read. -/
inductive ReadFault where
  | notJson (fault : SyntaxFault)
  | tooManyDigits (digits : Nat)
deriving DecidableEq, Repr

/-- The most digits a whole number may have. -/
def digitLimit : Nat := 4300

/-- The message of a failed reading. -/
def ReadFault.message : ReadFault → Text
  | notJson fault => fault.message
  | tooManyDigits digits =>
    "Exceeds the limit (" ++ Text.ofNat digitLimit ++
      " digits) for integer string conversion: value has " ++ Text.ofNat digits ++
      " digits; use sys.set_int_max_str_digits() to increase the limit"

/-- What stops the reader: a reason with the rest of the text at its place, or a number that is too
long. -/
inductive Stop where
  | at (reason : SyntaxReason) (rest : Text)
  | digits (count : Nat)

/-- A reader takes a value off the front of a text. -/
abbrev Reader (α : Type) := Text → Except Stop (α × Text)

/-- The blanks between tokens. -/
def isSpace (c : CodePoint) : Bool := c = ' ' || c = '\t' || c = '\n' || c = '\r'

/-- The text without blanks in front. -/
def skipSpace (t : Text) : Text := t.dropWhile isSpace

/-- The number that exactly `count` hexadecimal digits in front of a text spell, and the rest. -/
def hexDigits? : (count : Nat) → (value : Nat) → Text → Option (Nat × Text)
  | 0, value, t => some (value, t)
  | _ + 1, _, [] => none
  | count + 1, value, c :: t =>
    match c.hexValue? with
    | some d => hexDigits? count (value * 16 + d) t
    | none => none

/-- The code point of a number below `0x10000`, and of a surrogate pair. -/
def codePoint (n : Nat) : CodePoint := if h : n < 0x110000 then ⟨n, h⟩ else 0xFFFD

/-- What an escape with one letter stands for. -/
def shortEscape? (c : CodePoint) : Option CodePoint :=
  if c = '"' ∨ c = '\\' ∨ c = '/' then some c
  else if c = 'b' then some 8
  else if c = 'f' then some 12
  else if c = 'n' then some 10
  else if c = 'r' then some 13
  else if c = 't' then some 9
  else none

/-- Reads the escape after a backslash and the letter `u`. The digits must not end the text; an escaped
high surrogate directly followed by an escaped low one is one code point. -/
def unicodeEscape (t : Text) : Except Stop (CodePoint × Text) :=
  if (t.drop 4).isEmpty then .error (.at .invalidUnicodeEscape ((117 : CodePoint) :: t))
  else match hexDigits? 4 0 t with
    | none => .error (.at .invalidUnicodeEscape ((117 : CodePoint) :: t))
    | some (high, rest) =>
      if (codePoint high).isHighSurrogate ∧ !(rest.drop 6).isEmpty then
        match Text.after? "\\u" rest with
        | none => .ok (codePoint high, rest)
        | some rest' =>
          match hexDigits? 4 0 rest' with
          | none => .error (.at .invalidUnicodeEscape ((117 : CodePoint) :: rest'))
          | some (low, rest'') =>
            if (codePoint low).isLowSurrogate then
              .ok (codePoint (0x10000 + (high - 0xD800) * 0x400 + (low - 0xDC00)), rest'')
            else .ok (codePoint high, rest)
      else .ok (codePoint high, rest)

/-- Reads a text up to its closing quote. `start` is the text at the opening quote. -/
def textTail (start : Text) : (fuel : Nat) → Reader Text
  | 0, _ => .error (.at .unterminatedText start)
  | _ + 1, [] => .error (.at .unterminatedText start)
  | fuel + 1, c :: t =>
    if c = '"' then .ok ([], t)
    else if c = '\\' then
      match t with
      | [] => .error (.at .unterminatedText start)
      | e :: t' =>
        if e = 'u' then do
          let (point, rest) ← unicodeEscape t'
          let (more, rest) ← textTail start fuel rest
          pure (point :: more, rest)
        else match shortEscape? e with
          | none => .error (.at .invalidEscape (c :: t))
          | some point => do
            let (more, rest) ← textTail start fuel t'
            pure (point :: more, rest)
    else if c.val < 32 then .error (.at .controlCharacter (c :: t))
    else do
      let (more, rest) ← textTail start fuel t
      pure (c :: more, rest)

/-- Reads a text after its opening quote. -/
def readText (t : Text) : Except Stop (Text × Text) :=
  textTail ((34 : CodePoint) :: t) (t.length + 1) t

/-- The digits in front of a text, and the rest. -/
def digitRun (t : Text) : Text × Text := t.span CodePoint.isDigit

/-- The digits of a fraction, if the text begins with a point and a digit. -/
def fraction (t : Text) : Text × Text :=
  match t with
  | c :: t' =>
    let (digits, rest) := digitRun t'
    if c = '.' ∧ digits ≠ [] then (digits, rest) else ([], t)
  | [] => ([], t)

/-- The exponent, if the text begins with an exponent mark, an optional sign and a digit. -/
def exponent (t : Text) : Option Int × Text :=
  match t with
  | c :: t' =>
    if c = 'e' ∨ c = 'E' then
      let (negative, unsigned) : Bool × Text :=
        match t' with
        | s :: t'' => if s = '-' then (true, t'') else if s = '+' then (false, t'') else (false, t')
        | [] => (false, [])
      let (digits, rest) := digitRun unsigned
      if digits = [] then (none, t)
      else
        let n : Int := Text.digitsValue digits
        (some (if negative then -n else n), rest)
    else (none, t)
  | [] => (none, [])

/-- Reads a number. Without fraction and exponent it is a whole one. -/
def readNumber : Reader Json := fun start =>
  let (negative, t) : Bool × Text :=
    match start with
    | c :: t => if c = '-' then (true, t) else (false, start)
    | [] => (false, [])
  match t with
  | [] => .error (.at .expectingValue start)
  | c :: t' =>
    if !c.isDigit then .error (.at .expectingValue start)
    else
      let (whole, t) : Text × Text := if c = '0' then ([c], t') else digitRun (c :: t')
      let (decimals, t) := fraction t
      let (power, t) := exponent t
      if decimals = [] ∧ power = none then
        if digitLimit < whole.length then .error (.digits whole.length)
        else
          let n : Int := Text.digitsValue whole
          .ok (.int (if negative then -n else n), t)
      else
        .ok (.float (Binary64.ofDecimal negative (Text.digitsValue (whole ++ decimals))
          (power.getD 0 - decimals.length)), t)

/-- The words that stand for values. -/
def words : List (Text × Json) := [
  ("null", .null), ("true", .bool true), ("false", .bool false), ("NaN", .float .nan),
  ("Infinity", .float (.infinity false)), ("-Infinity", .float (.infinity true))]

/-- The word that a text begins with, and the rest. -/
def readWord? (t : Text) : Option (Json × Text) :=
  words.findSome? fun (word, value) => (Text.after? word t).map fun rest => (value, rest)

mutual

/-- Reads a value. Every call inside spends one unit of fuel. -/
def readValue : (fuel : Nat) → Reader Json
  | 0, t => .error (.at .expectingValue t)
  | fuel + 1, t =>
    match t with
    | [] => .error (.at .expectingValue t)
    | c :: rest =>
      if c = '"' then do
        let (value, rest) ← readText rest
        pure (.text value, rest)
      else if c = 0x7B then do
        let (entries, rest) ← readEntries fuel true (skipSpace rest)
        pure (.object (Table.ofEntries entries), rest)
      else if c = '[' then do
        let (items, rest) ← readItems fuel true (skipSpace rest)
        pure (.list items, rest)
      else match readWord? t with
        | some found => .ok found
        | none => readNumber t

/-- Reads the items of a list up to its closing bracket; only `first` may be that bracket itself. -/
def readItems : (fuel : Nat) → (first : Bool) → Reader (List Json)
  | 0, _, t => .error (.at .expectingValue t)
  | fuel + 1, first, t =>
    match first, t with
    | true, c :: rest =>
      if c = ']' then .ok ([], rest) else readItem fuel t
    | _, _ => readItem fuel t

/-- Reads one item and what follows it. -/
def readItem : (fuel : Nat) → Reader (List Json)
  | 0, t => .error (.at .expectingValue t)
  | fuel + 1, t => do
    let (value, rest) ← readValue fuel t
    match skipSpace rest with
    | [] => .error (.at .expectingComma [])
    | c :: rest =>
      if c = ']' then pure ([value], rest)
      else if c = ',' then do
        let (more, rest) ← readItems fuel false (skipSpace rest)
        pure (value :: more, rest)
      else .error (.at .expectingComma (c :: rest))

/-- Reads the entries of an object up to its closing brace; only `first` may be that brace itself. -/
def readEntries : (fuel : Nat) → (first : Bool) → Reader (List (Text × Json))
  | 0, _, t => .error (.at .expectingName t)
  | fuel + 1, first, t =>
    match first, t with
    | true, c :: rest =>
      if c = 0x7D then .ok ([], rest) else readEntry fuel t
    | _, _ => readEntry fuel t

/-- Reads one entry and what follows it. -/
def readEntry : (fuel : Nat) → Reader (List (Text × Json))
  | 0, t => .error (.at .expectingName t)
  | fuel + 1, t =>
    match t with
    | [] => .error (.at .expectingName [])
    | q :: t' =>
      if q ≠ '"' then .error (.at .expectingName t)
      else do
        let (key, rest) ← readText t'
        match skipSpace rest with
        | [] => .error (.at .expectingColon [])
        | c :: rest =>
          if c ≠ ':' then .error (.at .expectingColon (c :: rest))
          else do
            let (value, rest) ← readValue fuel (skipSpace rest)
            match skipSpace rest with
            | [] => .error (.at .expectingComma [])
            | c :: rest =>
              if c = 0x7D then pure ([(key, value)], rest)
              else if c = ',' then do
                let (more, rest) ← readEntries fuel false (skipSpace rest)
                pure ((key, value) :: more, rest)
              else .error (.at .expectingComma (c :: rest))

end

/-- The place of a fault in a text of which `rest` is left. -/
def SyntaxFault.locate (reason : SyntaxReason) (whole rest : Text) : SyntaxFault :=
  let position := whole.length - rest.length
  let before := whole.take position
  { reason
    position
    line := before.count 10 + 1
    column := (before.reverse.takeWhile (· ≠ 10)).length + 1 }

/-- Fuel for a text: a value spends at most three units on each of its code points. -/
def fuelFor (t : Text) : Nat := 3 * t.length + 3

/-- The JSON value that a text spells. -/
def parse (t : Text) : Except ReadFault Json :=
  let result : Except Stop Json :=
    if t.head? = some 0xFEFF then .error (.at .byteOrderMark t)
    else do
      let (value, rest) ← readValue (fuelFor t) (skipSpace t)
      match skipSpace rest with
      | [] => pure value
      | rest => .error (.at .extraData rest)
  match result with
  | .ok value => .ok value
  | .error (.digits count) => .error (.tooManyDigits count)
  | .error (.at reason rest) => .error (.notJson (.locate reason t rest))

end Json

end SolidityBuild
