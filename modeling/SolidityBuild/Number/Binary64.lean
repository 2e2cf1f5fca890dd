import SolidityBuild.Number.Decimal

/-!
Binary floating point with 53 bits of precision. A finite magnitude is a whole number of *units* of
size `2 ^ -1074`, the distance between the smallest values; it is held as `significand * 2 ^ scale`
units in the one form that the format allows. Rounding takes an exact quotient of naturals to the
nearest magnitude, a tie to the even significand, and is exact where the quotient is a magnitude.
-/

set_option autoImplicit false

namespace SolidityBuild

/-- The units in one. -/
def unitsPerOne : Nat := Nat.pow 2 1074

/-- A finite magnitude: `significand * 2 ^ scale` units. -/
structure Magnitude where
  significand : Nat
  scale : Nat
  /-- The significand has at most 53 bits, and exactly 53 unless the scale is the least one. -/
  normal : significand < Nat.pow 2 53 ∧ (scale = 0 ∨ Nat.pow 2 52 ≤ significand)
  /-- The scale stays below those of the values that are not finite. -/
  bounded : scale ≤ 2045
deriving DecidableEq, Repr

/-- A floating-point value. Zero and the infinities have a sign; not-a-number is one value. -/
inductive Binary64 where
  | nan
  | infinity (negative : Bool)
  | finite (negative : Bool) (magnitude : Magnitude)
deriving DecidableEq, Repr

namespace Magnitude

/-- The number of units of a magnitude. -/
def units (x : Magnitude) : Nat := x.significand * Nat.pow 2 x.scale

/-- The magnitude without units. -/
def zero : Magnitude := ⟨0, 0, by decide, by decide⟩

/-- The whole number nearest to `n / d`; halfway between two it is the even one. -/
def nearest (n d : Nat) : Nat :=
  let q := n / d
  let r := n % d
  if 2 * r < d then q else if d < 2 * r then q + 1 else if q % 2 = 0 then q else q + 1

/-- The scale at which a significand of `u` whole units has at most 53 bits. -/
def scaleFor (u : Nat) : Nat := Nat.log2 u - 52

/-- The magnitude `m * 2 ^ s` if that is a form of the format. -/
def ofParts? (m s : Nat) : Option Magnitude :=
  if h : (m < Nat.pow 2 53 ∧ (s = 0 ∨ Nat.pow 2 52 ≤ m)) ∧ s ≤ 2045 then some ⟨m, s, h.1, h.2⟩
  else none

/-- The magnitude nearest to `n / d` units; `none` beyond the largest one. -/
def round? (n d : Nat) : Option Magnitude :=
  let s := scaleFor (n / d)
  let m := nearest n (d * Nat.pow 2 s)
  if m = Nat.pow 2 53 then ofParts? (Nat.pow 2 52) (s + 1) else ofParts? m s

/-- The largest decimal exponents that need no arithmetic: beyond the first every value is too large,
below the second every value rounds to zero. -/
def decimalLimits : Int × Int := (310, -330)

/-- The magnitude nearest to `coefficient * 10 ^ exponent`; `none` beyond the largest one. -/
def ofDecimal? (coefficient : Nat) (exponent : Int) : Option Magnitude :=
  let size : Int := (decimalDigits coefficient).length + exponent
  if coefficient = 0 then some zero
  else if decimalLimits.1 < size then none
  else if size < decimalLimits.2 then some zero
  else if 0 ≤ exponent then round? (coefficient * Nat.pow 10 exponent.toNat * unitsPerOne) 1
  else round? (coefficient * unitsPerOne) (Nat.pow 10 (-exponent).toNat)

end Magnitude

namespace Binary64

/-- Positive zero. -/
def zero : Binary64 := .finite false .zero

/-- The value nearest to `± coefficient * 10 ^ exponent`. -/
def ofDecimal (negative : Bool) (coefficient : Nat) (exponent : Int) : Binary64 :=
  match Magnitude.ofDecimal? coefficient exponent with
  | some x => .finite negative x
  | none => .infinity negative

/-- Whether the value is a number at all. -/
def isFinite : Binary64 → Bool
  | finite .. => true
  | _ => false

/-- A finite value as a signed number of units. -/
def units? : Binary64 → Option Int
  | finite negative x => some (if negative then -(x.units : Int) else x.units)
  | _ => none

/-- The whole number that equals the value, if there is one. -/
def toInt? (x : Binary64) : Option Int :=
  x.units?.bind fun u => if u % unitsPerOne = 0 then some (u / unitsPerOne) else none

/-- Equality as numbers: the two zeros are equal, and not-a-number equals itself. -/
def numEq : Binary64 → Binary64 → Bool
  | finite s x, finite t y => x.units = y.units && (s = t || x.units = 0)
  | x, y => x = y

end Binary64

end SolidityBuild
