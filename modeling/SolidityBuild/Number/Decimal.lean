import SolidityBuild.Text.Basic

/-!
Whole numbers in decimal notation, both ways. Digits are lists of values below ten, the most
significant first, so that the arithmetic stays apart from the code points that spell it.
-/

set_option autoImplicit false

namespace SolidityBuild

/-- The decimal digits of a number in front of the digits `tail`. -/
def decimalDigitsBefore (n : Nat) (tail : List Nat) : List Nat :=
  if n < 10 then n :: tail else decimalDigitsBefore (n / 10) (n % 10 :: tail)
termination_by n

/-- The decimal digits of a number; zero has one. -/
def decimalDigits (n : Nat) : List Nat := decimalDigitsBefore n []

/-- The number that digits of a base spell. -/
def ofDigits (base : Nat) (digits : List Nat) : Nat :=
  digits.foldl (fun n d => n * base + d) 0

namespace Text

/-- The decimal text of a natural number. -/
def ofNat (n : Nat) : Text := (decimalDigits n).map CodePoint.ofDigit

/-- The decimal text of an integer. -/
def ofInt : Int → Text
  | .ofNat n => ofNat n
  | .negSucc n => (45 : CodePoint) :: ofNat (n + 1)

/-- The number that ASCII digits spell. -/
def digitsValue (t : Text) : Nat := ofDigits 10 (t.map fun c => c.val - 48)

/-- A text of at least one ASCII digit. -/
def isDigits (t : Text) : Bool := !t.isEmpty && t.all CodePoint.isDigit

end Text

end SolidityBuild
