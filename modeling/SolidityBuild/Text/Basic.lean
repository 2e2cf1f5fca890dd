/-!
Text as a sequence of code points. Documents may spell a lone surrogate (an escape with no partner),
which no sequence of Unicode scalar values can hold, so a code point here is any number below
`0x110000`. Order on texts is the lexicographic order of their code points.
-/

set_option autoImplicit false

namespace SolidityBuild

/-- A code point, surrogates included. -/
abbrev CodePoint := Fin 0x110000

/-- There are code points, so that numerals stand for them. -/
instance CodePoint.neZero : @NeZero Nat Zero.ofOfNat0 0x110000 := ⟨by decide⟩

/-- A text is the list of its code points. -/
abbrev Text := List CodePoint

namespace CodePoint

/-- The code point of a scalar value. -/
def ofChar (c : Char) : CodePoint :=
  ⟨c.toNat, by
    have h := c.valid
    simp only [UInt32.isValidChar, Nat.isValidChar] at h
    have : c.toNat = c.val.toNat := rfl
    omega⟩

instance : Coe Char CodePoint := ⟨ofChar⟩

/-- Surrogates are the code points that no encoding form may carry on their own. -/
def isSurrogate (c : CodePoint) : Bool := 0xD800 ≤ c.val && c.val ≤ 0xDFFF

/-- A surrogate that opens a pair. -/
def isHighSurrogate (c : CodePoint) : Bool := 0xD800 ≤ c.val && c.val ≤ 0xDBFF

/-- A surrogate that closes a pair. -/
def isLowSurrogate (c : CodePoint) : Bool := 0xDC00 ≤ c.val && c.val ≤ 0xDFFF

/-- The decimal digits of ASCII. -/
def isDigit (c : CodePoint) : Bool := 48 ≤ c.val && c.val ≤ 57

/-- The lower-case letters of ASCII. -/
def isLower (c : CodePoint) : Bool := 97 ≤ c.val && c.val ≤ 122

/-- The upper-case letters of ASCII. -/
def isUpper (c : CodePoint) : Bool := 65 ≤ c.val && c.val ≤ 90

/-- The lower-case partner of an ASCII letter; every other code point is its own. -/
def toLower (c : CodePoint) : CodePoint :=
  if h : c.isUpper = true then
    ⟨c.val + 32, by simp [isUpper] at h; omega⟩
  else c

/-- The value of a hexadecimal digit in either case. -/
def hexValue? (c : CodePoint) : Option Nat :=
  if c.isDigit then some (c.val - 48)
  else if 97 ≤ c.val && c.val ≤ 102 then some (c.val - 87)
  else if 65 ≤ c.val && c.val ≤ 70 then some (c.val - 55)
  else none

/-- The lower-case hexadecimal digit of a value; values from sixteen on wrap around. -/
def ofHexDigit (n : Nat) : CodePoint :=
  let d := n % 16
  if h : d < 10 then ⟨48 + d, by omega⟩
  else ⟨87 + d, by have : d < 16 := Nat.mod_lt _ (by omega); omega⟩

/-- The decimal digit of a value; values from ten on wrap around. -/
def ofDigit (n : Nat) : CodePoint :=
  ⟨48 + n % 10, by have : n % 10 < 10 := Nat.mod_lt _ (by omega); omega⟩

end CodePoint

/-- The lexicographic order that an order of the items gives: the first place where two lists differ
decides, and a list comes before those that it begins. -/
def lexicographic {α : Type} [DecidableEq α] (le : α → α → Bool) : List α → List α → Bool
  | [], _ => true
  | _ :: _, [] => false
  | a :: s, b :: t => if a = b then lexicographic le s t else le a b

namespace Text

/-- The text of a string. -/
def ofString (s : String) : Text := s.toList.map CodePoint.ofChar

instance : Coe String Text := ⟨ofString⟩

/-- The string of a text; a surrogate becomes the replacement character. -/
def toString (t : Text) : String :=
  String.ofList (t.map fun c => if c.isSurrogate then Char.ofNat 0xFFFD else Char.ofNat c.val)

/-- The order of texts: lexicographic, by code point. -/
def le : Text → Text → Bool := lexicographic fun c d => decide (c.val ≤ d.val)

/-- The parts of a list joined by a separator. -/
def join (separator : Text) (parts : List Text) : Text := separator.intercalate parts

/-- The text repeated. -/
def times (n : Nat) (t : Text) : Text := (List.replicate n t).flatten

/-- Lower-casing of the ASCII letters. -/
def toLower (t : Text) : Text := t.map CodePoint.toLower

/-- What follows `lead`, if the text begins with it. -/
def after? : (lead t : Text) → Option Text
  | [], t => some t
  | _ :: _, [] => none
  | c :: lead, d :: t => if c = d then after? lead t else none

/-- Whether the text ends with `tail`. -/
def endsWith (t tail : Text) : Bool := tail.isSuffixOf t

/-- What stands before and after the first place where `mark` occurs. -/
def splitAt? (mark : Text) : Text → Option (Text × Text)
  | [] => if mark = [] then some ([], []) else none
  | c :: t =>
    match after? mark (c :: t) with
    | some rest => some ([], rest)
    | none => (splitAt? mark t).map fun (before, rest) => (c :: before, rest)

/-- Whether `mark` occurs anywhere in the text. -/
def has (t mark : Text) : Bool := (splitAt? mark t).isSome

/-- The pieces of a text between the places where `mark` occurs; there is always at least one. -/
def splitOn (mark : CodePoint) : Text → List Text
  | [] => [[]]
  | c :: t =>
    match splitOn mark t with
    | [] => [[c]]
    | first :: others => if c = mark then [] :: first :: others else (c :: first) :: others

end Text

end SolidityBuild
