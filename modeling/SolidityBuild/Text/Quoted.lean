import SolidityBuild.Text.Printable

/-!
How a message quotes a text: single quotes, or double quotes if the text holds single quotes and no
double ones; the quote in use, the backslash and everything that is not shown as it is are escaped.
-/

set_option autoImplicit false

namespace SolidityBuild

namespace Text

/-- The lowest `digits` hexadecimal digits of a number. -/
def hex : (digits : Nat) → (n : Nat) → Text
  | 0, _ => []
  | digits + 1, n => hex digits (n / 16) ++ [CodePoint.ofHexDigit n]

/-- The shortest of the three numeric escapes that can hold a code point. -/
def numericEscape (c : CodePoint) : Text :=
  if c.val < 0x100 then "\\x" ++ hex 2 c.val
  else if c.val < 0x10000 then "\\u" ++ hex 4 c.val
  else "\\U" ++ hex 8 c.val

/-- One code point inside quotes. -/
def quotedPoint (quote c : CodePoint) : Text :=
  if c = quote ∨ c = '\\' then ['\\', c]
  else if c = '\n' then "\\n"
  else if c = '\r' then "\\r"
  else if c = '\t' then "\\t"
  else if c.isPrintable then [c]
  else numericEscape c

/-- The single quote. -/
def singleQuote : CodePoint := 39

/-- The double quote. -/
def doubleQuote : CodePoint := 34

/-- The text in quotes. -/
def quoted (t : Text) : Text :=
  let quote := if t.contains singleQuote && !t.contains doubleQuote then doubleQuote else singleQuote
  [quote] ++ t.flatMap (quotedPoint quote) ++ [quote]

end Text

end SolidityBuild
