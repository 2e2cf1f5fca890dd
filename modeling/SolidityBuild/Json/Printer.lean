import SolidityBuild.Json.Basic
import SolidityBuild.Number.Shortest
import SolidityBuild.Text.Quoted

/-!
Printing JSON values. A layout says what separates items and keys, whether code points beyond ASCII
are escaped, and by how much nested lines are indented, if lines are broken at all. Three layouts are
in use: the plain one of stored documents, the compact one that is hashed, and the indented one that
is shown.
-/

set_option autoImplicit false

namespace SolidityBuild

namespace Json

/-- The free choices of printing. -/
structure Layout where
  betweenItems : Text
  afterKey : Text
  /-- Whether delete and the code points beyond ASCII are escaped. -/
  asciiOnly : Bool
  /-- The indentation of one level, if items stand on lines of their own. -/
  indent : Option Nat

namespace Layout

/-- One line, a blank after every separator, ASCII only. -/
def plain : Layout := ⟨", ", ": ", true, none⟩

/-- One line, no blanks, text as it is. -/
def compact : Layout := ⟨",", ":", false, none⟩

/-- Every item on a line of its own, indented by two blanks a level, ASCII only. -/
def indented : Layout := ⟨",", ": ", true, some 2⟩

end Layout

/-- An escape with four hexadecimal digits. -/
def escapeUnit (n : Nat) : Text := "\\u" ++ Text.hex 4 n

/-- One code point inside quotes: quote, backslash and the controls below the blank are always escaped;
delete and the code points beyond ASCII are if asked for, those beyond the first plane as a surrogate
pair. -/
def escapePoint (asciiOnly : Bool) (c : CodePoint) : Text :=
  if c = '"' then "\\\""
  else if c = '\\' then "\\\\"
  else if c = '\n' then "\\n"
  else if c = '\r' then "\\r"
  else if c = '\t' then "\\t"
  else if c.val = 12 then "\\f"
  else if c.val = 8 then "\\b"
  else if c.val < 32 then escapeUnit c.val
  else if c.val < 127 ∨ !asciiOnly then [c]
  else if c.val < 0x10000 then escapeUnit c.val
  else
    let n := c.val - 0x10000
    escapeUnit (0xD800 + n / 0x400) ++ escapeUnit (0xDC00 + n % 0x400)

/-- A text in quotes. -/
def printText (asciiOnly : Bool) (t : Text) : Text :=
  (34 : CodePoint) :: (t.flatMap (escapePoint asciiOnly) ++ [34])

/-- The text of a floating-point value. -/
def printFloat (x : Binary64) : Text := x.shortestText "NaN" "Infinity"

/-- The line break and indentation in front of what stands at a depth. -/
def lineBreak (layout : Layout) (depth : Nat) : Text :=
  match layout.indent with
  | none => []
  | some width => (10 : CodePoint) :: List.replicate (width * depth) 32

mutual

/-- The text of a value that stands at a depth. -/
def printAt (layout : Layout) (depth : Nat) : Json → Text
  | null => "null"
  | bool b => if b then "true" else "false"
  | int n => Text.ofInt n
  | float x => printFloat x
  | text t => printText layout.asciiOnly t
  | list [] => "[]"
  | list items =>
    "[" ++ lineBreak layout (depth + 1) ++ printItems layout (depth + 1) items ++
      lineBreak layout depth ++ "]"
  | object [] => "\x7b\x7d"
  | object entries =>
    "\x7b" ++ lineBreak layout (depth + 1) ++ printEntries layout (depth + 1) entries ++
      lineBreak layout depth ++ "\x7d"

/-- The text of items with separators between them. -/
def printItems (layout : Layout) (depth : Nat) : List Json → Text
  | [] => []
  | [x] => printAt layout depth x
  | x :: xs =>
    printAt layout depth x ++ layout.betweenItems ++ lineBreak layout depth ++
      printItems layout depth xs

/-- The text of entries with separators between them. -/
def printEntries (layout : Layout) (depth : Nat) : List (Text × Json) → Text
  | [] => []
  | [(k, x)] => printText layout.asciiOnly k ++ layout.afterKey ++ printAt layout depth x
  | (k, x) :: xs =>
    printText layout.asciiOnly k ++ layout.afterKey ++ printAt layout depth x ++
      layout.betweenItems ++ lineBreak layout depth ++ printEntries layout depth xs

end

/-- The text of a value in a layout. -/
def print (layout : Layout) (j : Json) : Text := printAt layout 0 j

/-- The plain text of a value. -/
def render (j : Json) : Text := j.print .plain

end Json

end SolidityBuild
