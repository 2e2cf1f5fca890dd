import SolidityBuild.Text.Basic

/-!
Lines and blanks of a text. Three sets are told apart: the code points that end a line, the blanks
trimmed from the ends of a line, and the smaller set of white space that surrounds a written number.
-/

set_option autoImplicit false

namespace SolidityBuild

namespace CodePoint

/-- White space in the sense of the character database. -/
def isWhiteSpace (c : CodePoint) : Bool :=
  let n := c.val
  (9 ≤ n && n ≤ 13) || n = 32 || n = 0x85 || n = 0xA0 || n = 0x1680 ||
    (0x2000 ≤ n && n ≤ 0x200A) || n = 0x2028 || n = 0x2029 || n = 0x202F || n = 0x205F || n = 0x3000

/-- A blank: white space or one of the four information separators. -/
def isBlank (c : CodePoint) : Bool := c.isWhiteSpace || (28 ≤ c.val && c.val ≤ 31)

/-- The code points that end a line. A carriage return directly before a line feed ends it once. -/
def endsLine (c : CodePoint) : Bool :=
  let n := c.val
  (10 ≤ n && n ≤ 13) || (28 ≤ n && n ≤ 30) || n = 0x85 || n = 0x2028 || n = 0x2029

end CodePoint

namespace Text

/-- The text without the leading code points that satisfy `drop`. -/
def trimLeftBy (drop : CodePoint → Bool) (t : Text) : Text := t.dropWhile drop

/-- The text without the trailing code points that satisfy `drop`. -/
def trimRightBy (drop : CodePoint → Bool) (t : Text) : Text := (t.reverse.dropWhile drop).reverse

/-- The text without blanks at either end. -/
def trim (t : Text) : Text := trimRightBy CodePoint.isBlank (trimLeftBy CodePoint.isBlank t)

/-- The text without white space at either end. -/
def trimWhiteSpace (t : Text) : Text :=
  trimRightBy CodePoint.isWhiteSpace (trimLeftBy CodePoint.isWhiteSpace t)

/-- Every carriage return, with the line feed after it if there is one, becomes one line feed. -/
def unifyNewlines : Text → Text
  | [] => []
  | [c] => if c = 13 then [10] else [c]
  | c :: d :: rest =>
    if c = 13 then
      if d = 10 then 10 :: unifyNewlines rest else 10 :: unifyNewlines (d :: rest)
    else c :: unifyNewlines (d :: rest)

/-- The lines of a text without their ends; a text that ends with a line end has no line after it. -/
def lines : Text → List Text
  | [] => []
  | [c] => if c.endsLine then [[]] else [[c]]
  | c :: d :: rest =>
    if c = 13 ∧ d = 10 then [] :: lines rest
    else if c.endsLine then [] :: lines (d :: rest)
    else match lines (d :: rest) with
      | [] => [[c]]
      | first :: others => (c :: first) :: others

end Text

end SolidityBuild
