import SolidityBuild.Text.Basic

/-!
A place in a YAML text: what is left of the text, and how far the place is, in code points, in lines and
in columns. Behind the end of the text there is nothing but the code point zero, which no YAML text
contains.
-/

set_option autoImplicit false

namespace SolidityBuild

namespace Yaml

/-- The code points that break a line. -/
def isBreak (c : CodePoint) : Bool :=
  c.val = 10 || c.val = 13 || c.val = 0x85 || c.val = 0x2028 || c.val = 0x2029

/-- A line break or the end. -/
def isBreakOrEnd (c : CodePoint) : Bool := isBreak c || c.val = 0

/-- A space, a line break or the end. -/
def isSpaceOrEnd (c : CodePoint) : Bool := isBreakOrEnd c || c.val = 32

/-- A tabulator, a space, a line break or the end. -/
def isBlankOrEnd (c : CodePoint) : Bool := isSpaceOrEnd c || c.val = 9

/-- A place in a text. -/
structure Cursor where
  rest : Text
  index : Nat := 0
  line : Nat := 0
  column : Nat := 0

namespace Cursor

/-- The code point that stands `n` places ahead. -/
def peek (c : Cursor) (n : Nat) : CodePoint := (c.rest.drop n).headD 0

/-- The code point at the place. -/
def head (c : Cursor) : CodePoint := c.rest.headD 0

/-- The next place. A line break leads to the next line, a carriage return in front of a line feed not
yet; a byte order mark takes no column. -/
def advance (c : Cursor) : Cursor :=
  match c.rest with
  | [] => c
  | x :: rest =>
    if isBreak x ∧ ¬(x.val = 13 ∧ rest.head? = some 10) then ⟨rest, c.index + 1, c.line + 1, 0⟩
    else if x.val = 0xFEFF then ⟨rest, c.index + 1, c.line, c.column⟩
    else ⟨rest, c.index + 1, c.line, c.column + 1⟩

/-- The place `n` further on. -/
def advanceBy (c : Cursor) : Nat → Cursor
  | 0 => c
  | n + 1 => c.advance.advanceBy n

/-- The code points from here on that satisfy a test, and the place behind them. -/
def takeWhile (c : Cursor) (test : CodePoint → Bool) : Text × Cursor :=
  let taken := c.rest.takeWhile test
  (taken, c.advanceBy taken.length)

/-- The place behind the code points that satisfy a test. -/
def skipWhile (c : Cursor) (test : CodePoint → Bool) : Cursor := (c.takeWhile test).2

/-- The place behind spaces. -/
def skipSpaces (c : Cursor) : Cursor := c.skipWhile fun x => x.val = 32

/-- The place behind spaces up to a column. -/
def skipIndent (c : Cursor) (column : Nat) : Cursor :=
  let spaces := (c.rest.takeWhile fun x => x.val = 32).length
  c.advanceBy (min spaces (column - c.column))

/-- The place behind a comment, if there is one: at the line break or the end. -/
def skipComment (c : Cursor) : Cursor :=
  if c.head.val = 35 then c.skipWhile fun x => !isBreakOrEnd x else c

/-- The line break at the place, if there is one, as it counts in a scalar, and the place behind it. -/
def lineBreak? (c : Cursor) : Option (CodePoint × Cursor) :=
  if !isBreak c.head then none
  else if c.head.val = 13 ∧ c.peek 1 = 10 then some (10, c.advanceBy 2)
  else if c.head.val = 0x2028 ∨ c.head.val = 0x2029 then some (c.head, c.advance)
  else some (10, c.advance)

/-- Whether three equal marks with a blank behind them stand here, which separate documents. -/
def isAtMark (c : Cursor) (mark : CodePoint) : Bool :=
  c.rest.take 3 = [mark, mark, mark] && isBlankOrEnd (c.peek 3)

/-- The mark that starts a document. -/
def startMark : CodePoint := 45

/-- The mark that ends a document. -/
def endMark : CodePoint := 46

/-- Whether a mark that separates documents stands here. -/
def isAtSeparator (c : Cursor) : Bool := c.isAtMark startMark || c.isAtMark endMark

end Cursor

end Yaml

end SolidityBuild
