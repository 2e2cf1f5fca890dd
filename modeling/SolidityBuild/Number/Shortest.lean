import SolidityBuild.Number.Binary64

/-!
The shortest decimal text of a floating-point value. For one digit, two digits, and so on, the two
neighbours of the value on the decimal grid of that many digits are read back; the first grid with a
neighbour that reads back as the value wins, of two such neighbours the nearer one, of two equally
near the even one. Should no grid up to 17 digits have one, all digits of the value are written.
-/

set_option autoImplicit false

namespace SolidityBuild

/-- A decimal number `coefficient * 10 ^ exponent`. -/
structure DecimalFloat where
  coefficient : Nat
  exponent : Int
deriving DecidableEq, Repr

namespace DecimalFloat

/-- Moves trailing zeros of the coefficient, at most `fuel` of them, into the exponent. -/
def strip : (fuel : Nat) → DecimalFloat → DecimalFloat
  | 0, d => d
  | fuel + 1, d =>
    if d.coefficient ≠ 0 ∧ d.coefficient % 10 = 0 then
      strip fuel ⟨d.coefficient / 10, d.exponent + 1⟩
    else d

end DecimalFloat

namespace Magnitude

/-- The exponent of the first decimal digit of a magnitude that is not zero. -/
def leadingExponent (x : Magnitude) : Int :=
  ((decimalDigits (x.units * Nat.pow 10 400 / unitsPerOne)).length : Int) - 1 - 400

/-- The value in steps of `10 ^ exponent`, as a quotient of naturals. -/
def inSteps (x : Magnitude) (exponent : Int) : Nat × Nat :=
  if 0 ≤ exponent then (x.units, unitsPerOne * Nat.pow 10 exponent.toNat)
  else (x.units * Nat.pow 10 (-exponent).toNat, unitsPerOne)

/-- Whether a decimal number reads back as the magnitude. -/
def readsBack (x : Magnitude) (d : DecimalFloat) : Bool :=
  ofDecimal? d.coefficient d.exponent = some x

/-- The neighbours of the value on a decimal grid, the preferred one first. -/
def neighbours (x : Magnitude) (exponent : Int) : List DecimalFloat :=
  let (n, d) := x.inSteps exponent
  let below := n / d
  let r := n % d
  let lower : DecimalFloat := ⟨below, exponent⟩
  let upper : DecimalFloat := ⟨below + 1, exponent⟩
  if 2 * r < d ∨ (2 * r = d ∧ below % 2 = 0) then [lower, upper] else [upper, lower]

/-- The exact decimal expansion of the value. -/
def expansion (x : Magnitude) : DecimalFloat := ⟨x.units * Nat.pow 5 1074, -1074⟩

/-- The shortest decimal number that reads back as the magnitude. -/
def shortest (x : Magnitude) : DecimalFloat :=
  if x.significand = 0 then ⟨0, 0⟩
  else
    let lead := x.leadingExponent
    let grids := (List.range 17).map fun n : Nat => lead - (n : Int)
    let found := (grids.flatMap x.neighbours).find? x.readsBack
    (found.getD x.expansion).strip 20

end Magnitude

/-- How a decimal number is written: without an exponent while that of its first digit is at least
`positionalFrom` and below `positionalBelow`. -/
structure FloatFormat where
  positionalFrom : Int
  positionalBelow : Int

namespace FloatFormat

/-- Documents write floats without exponent from `0.0001` up to below `10 ^ 16`, keep one digit after
the point there, and give the exponent a sign and at least two digits elsewhere. -/
def document : FloatFormat := ⟨-4, 16⟩

/-- The text of `digits` with the first digit at `10 ^ lead`. -/
def place (format : FloatFormat) (digits : Text) (lead : Int) : Text :=
  if format.positionalFrom ≤ lead ∧ lead < format.positionalBelow then
    if lead < 0 then "0." ++ Text.times (-lead - 1).toNat "0" ++ digits
    else
      let whole := lead.toNat + 1
      if digits.length ≤ whole then digits ++ Text.times (whole - digits.length) "0" ++ ".0"
      else digits.take whole ++ "." ++ digits.drop whole
  else
    let size := Text.ofNat lead.natAbs
    let mark : Text := if lead < 0 then "e-" else "e+"
    let exponent := mark ++ (if size.length < 2 then "0" ++ size else size)
    match digits with
    | [] => exponent
    | [d] => d :: exponent
    | d :: rest => d :: ("." ++ rest ++ exponent)

end FloatFormat

namespace Binary64

/-- The shortest decimal text of a value; the texts of the values that are not finite are given. -/
def shortestText (nanText infinityText : Text) : Binary64 → Text
  | nan => nanText
  | infinity negative => (if negative then "-" else "") ++ infinityText
  | finite negative x =>
    let d := x.shortest
    let digits := (decimalDigits d.coefficient).map CodePoint.ofDigit
    let lead := d.exponent + digits.length - 1
    (if negative then "-" else "") ++ FloatFormat.document.place digits lead

end Binary64

end SolidityBuild
