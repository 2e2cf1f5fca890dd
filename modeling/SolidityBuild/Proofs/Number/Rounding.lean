import SolidityBuild.Number.Shortest
import SolidityBuild.Proofs.Number.DecimalDigits

/-!
Rounding to the nearest magnitude. Two facts carry everything that is said about decimal texts later on:
the magnitude nearest to a decimal number depends on the number only and not on how its coefficient and
exponent share the powers of ten, and a quotient that is a magnitude already is rounded to itself.
Together they make the shortest decimal number of a magnitude read back as that magnitude.
-/

set_option autoImplicit false

namespace SolidityBuild

namespace Magnitude

/-! ## Common factors -/

/-- A common factor of both sides of the quotient changes neither the whole part nor which of the two
neighbours is nearer. -/
theorem nearest_mul_right (n d : Nat) {k : Nat} (hk : 0 < k) :
    nearest (n * k) (d * k) = nearest n d := by
  have hr : n * k % (d * k) = n % d * k := Nat.mul_mod_mul_right k n d
  have hlow : 2 * (n % d * k) < d * k ↔ 2 * (n % d) < d := by
    rw [← Nat.mul_assoc]
    exact Nat.mul_lt_mul_right hk
  have hhigh : d * k < 2 * (n % d * k) ↔ d < 2 * (n % d) := by
    rw [← Nat.mul_assoc]
    exact Nat.mul_lt_mul_right hk
  simp only [nearest, Nat.mul_div_mul_right n d hk, hr, hlow, hhigh]

theorem round?_mul_right (n d : Nat) {k : Nat} (hk : 0 < k) :
    round? (n * k) (d * k) = round? n d := by
  -- the factor is moved behind the scale, where `nearest_mul_right` finds it
  have hfactor : ∀ s, d * k * Nat.pow 2 s = d * Nat.pow 2 s * k := fun s => Nat.mul_right_comm d k _
  simp only [round?, Nat.mul_div_mul_right n d hk, hfactor, nearest_mul_right n _ hk]

/-! ## Decimal numbers -/

/-- A decimal number other than zero, as the quotient that is rounded. -/
theorem ofDecimal?_of_pos {c : Nat} (hc : 0 < c) (e : Int) :
    ofDecimal? c e =
      if decimalLimits.1 < (decimalDigits c).length + e then none
      else if (decimalDigits c).length + e < decimalLimits.2 then some zero
      else round? (c * 10 ^ e.toNat * unitsPerOne) (10 ^ (-e).toNat) := by
  simp only [ofDecimal?, if_neg hc.ne', Nat.pow_eq]
  -- a power with a thousand digits, which nothing below may evaluate
  generalize unitsPerOne = u
  by_cases he : 0 ≤ e
  · rw [if_pos he, Int.toNat_of_nonpos (by omega : -e ≤ 0), Nat.pow_zero]
  · rw [if_neg he, Int.toNat_of_nonpos (by omega : e ≤ 0), Nat.pow_zero, Nat.mul_one]

theorem ofDecimal?_zero (e : Int) : ofDecimal? 0 e = some zero := by
  simp only [ofDecimal?, if_true]

/-- A factor of ten may stand in the coefficient or in the exponent. -/
theorem ofDecimal?_mul_ten (c : Nat) (e : Int) : ofDecimal? (c * 10) (e - 1) = ofDecimal? c e := by
  rcases Nat.eq_zero_or_pos c with rfl | hc
  · rw [Nat.zero_mul, ofDecimal?_zero, ofDecimal?_zero]
  · have hsize : ((decimalDigits (c * 10)).length : Int) + (e - 1) = (decimalDigits c).length + e := by
      rw [length_decimalDigits_mul_ten hc]
      push_cast
      ring
    rw [ofDecimal?_of_pos hc, ofDecimal?_of_pos (by omega), hsize]
    generalize unitsPerOne = u
    congr 2
    -- with a positive exponent the numerator had the ten already, otherwise both sides get it
    rcases lt_or_ge 0 e with he | he
    · have hnum : e.toNat = (e - 1).toNat + 1 := by omega
      have hden : (-(e - 1)).toNat = (-e).toNat := by omega
      rw [hden, hnum, Nat.pow_succ]
      congr 1
      ring
    · have hnum : (e - 1).toNat = e.toNat := by omega
      have hden : (-(e - 1)).toNat = (-e).toNat + 1 := by omega
      rw [hnum, hden, Nat.pow_succ, ← round?_mul_right (c * 10 ^ e.toNat * u) _
        (by omega : 0 < 10)]
      congr 1
      ring

/-- **A decimal number may be written with any number of further zeros.** -/
theorem ofDecimal?_mul_pow (c k : Nat) (e : Int) :
    ofDecimal? (c * 10 ^ k) (e - k) = ofDecimal? c e := by
  induction k with
  | zero => simp
  | succ k ih =>
    rw [← ih, ← ofDecimal?_mul_ten (c * 10 ^ k), Nat.pow_succ, Nat.mul_assoc]
    congr 1
    push_cast
    ring

/-! ## Magnitudes round to themselves -/

theorem nearest_mul_self (m : Nat) {d : Nat} (hd : 0 < d) : nearest (m * d) d = m := by
  simp only [nearest, Nat.mul_mod_left, Nat.mul_div_cancel m hd]
  rw [if_pos (by omega)]

theorem log2_mul_two_pow {m : Nat} (hm : 0 < m) (s : Nat) : (m * 2 ^ s).log2 = m.log2 + s := by
  induction s with
  | zero => rw [Nat.pow_zero, Nat.mul_one, Nat.add_zero]
  | succ s ih =>
    have hpos : 0 < m * 2 ^ s := Nat.mul_pos hm (Nat.two_pow_pos s)
    rw [Nat.pow_succ, ← Nat.mul_assoc, Nat.mul_comm _ 2, Nat.log2_two_mul hpos.ne', ih]
    rfl

theorem units_eq (x : Magnitude) : x.units = x.significand * 2 ^ x.scale := rfl

theorem scaleFor_units (x : Magnitude) : scaleFor x.units = x.scale := by
  obtain ⟨m, s, ⟨hlt, hform⟩, -⟩ := x
  rw [scaleFor, units_eq]
  dsimp only at hlt hform ⊢
  rw [Nat.pow_eq] at hlt hform
  rcases Nat.eq_zero_or_pos m with rfl | hm
  · have : s = 0 := by omega
    rw [this, Nat.zero_mul]
    rfl
  · have hupper : m.log2 < 53 := (Nat.log2_lt hm.ne').mpr hlt
    -- either there is nothing to scale, or the significand has all its 53 bits
    rcases hform with rfl | hlower
    · rw [log2_mul_two_pow hm]
      omega
    · have : 52 ≤ m.log2 := (Nat.le_log2 hm.ne').mpr hlower
      rw [log2_mul_two_pow hm]
      omega

theorem ofParts?_self (x : Magnitude) : ofParts? x.significand x.scale = some x := by
  rw [ofParts?, dif_pos ⟨x.normal, x.bounded⟩]

/-- **A quotient that is a whole number of units of a magnitude is that magnitude.** -/
theorem round?_units (x : Magnitude) {d : Nat} (hd : 0 < d) : round? (x.units * d) d = some x := by
  have hscaled : x.units * d = x.significand * (d * Nat.pow 2 x.scale) := by
    rw [units]
    ring
  simp only [round?, Nat.mul_div_cancel _ hd, scaleFor_units]
  have hstep : 0 < d * Nat.pow 2 x.scale := Nat.mul_pos hd (Nat.two_pow_pos _)
  rw [hscaled, nearest_mul_self _ hstep,
    if_neg x.normal.1.ne, ofParts?_self]

theorem eq_zero_of_significand {x : Magnitude} (h : x.significand = 0) : x = zero := by
  obtain ⟨m, s, hnormal, hbounded⟩ := x
  dsimp only at h hnormal
  rw [Nat.pow_eq, Nat.pow_eq] at hnormal
  have hs : s = 0 := by omega
  subst h hs
  rfl

theorem units_pos {x : Magnitude} (h : x.significand ≠ 0) : 0 < x.units :=
  Nat.mul_pos (Nat.pos_of_ne_zero h) (Nat.two_pow_pos _)

/-! ## Reading the shortest decimal number back -/

/-- A decimal number that is a whole number of units of a magnitude reads back as that magnitude, if it
is not cut off before rounding. The powers are variables here, since nothing may evaluate them. -/
theorem ofDecimal?_exact {x : Magnitude} {top five k low high : Nat} (hpos : 0 < x.units)
    (htop : x.units < top) (hlow : 10 ^ low ≤ five) (hhigh : top * five ≤ 10 ^ high)
    (hten : five * unitsPerOne = 10 ^ k) (hleast : k ≤ low + 330) (hmost : high ≤ k + 310) :
    ofDecimal? (x.units * five) (-k) = some x := by
  have hfive : 0 < five := lt_of_lt_of_le (Nat.pow_pos (by omega)) hlow
  have hc : 0 < x.units * five := Nat.mul_pos hpos hfive
  have hlonger : low < (decimalDigits (x.units * five)).length :=
    (lt_length_decimalDigits_iff hc).mpr (le_trans hlow (Nat.le_mul_of_pos_left _ hpos))
  have hshorter : (decimalDigits (x.units * five)).length ≤ high := by
    rw [← Nat.not_lt, lt_length_decimalDigits_iff hc, Nat.not_le]
    exact lt_of_lt_of_le (Nat.mul_lt_mul_of_pos_right htop hfive) hhigh
  have hcut : decimalLimits = (310, -330) := rfl
  have hnum : (-(k : Int)).toNat = 0 := Int.toNat_of_nonpos (by omega)
  have hden : (- -(k : Int)).toNat = k := by rw [Int.neg_neg, Int.toNat_natCast]
  rw [ofDecimal?_of_pos hc, hcut, hnum, hden, Nat.pow_zero, Nat.mul_one, Nat.mul_assoc, hten,
    round?_units x (Nat.pow_pos (by omega)), if_neg (by omega), if_neg (by omega)]

theorem units_lt {x : Magnitude} {s : Nat} (hs : x.scale ≤ s) :
    x.units < Nat.pow 2 53 * Nat.pow 2 s :=
  lt_of_lt_of_le (Nat.mul_lt_mul_of_pos_right x.normal.1 (Nat.two_pow_pos _))
    (Nat.mul_le_mul_left _ (Nat.pow_le_pow_right (by omega) hs))

theorem readsBack_iff {x : Magnitude} {d : DecimalFloat} :
    x.readsBack d = true ↔ ofDecimal? d.coefficient d.exponent = some x := by
  rw [readsBack, decide_eq_true_eq]

/-- All digits of a magnitude read back as the magnitude: written out they are at least 751 and at most
1384, of which 1074 stand behind the point. -/
theorem readsBack_expansion {x : Magnitude} (h : x.significand ≠ 0) :
    x.readsBack x.expansion = true := by
  obtain ⟨s, hs, hmost⟩ : ∃ s, x.scale ≤ s ∧
      Nat.pow 2 53 * Nat.pow 2 s * Nat.pow 5 1074 ≤ 10 ^ 1384 :=
    ⟨2045, x.bounded, by decide +kernel⟩
  have hleast : 10 ^ 750 ≤ Nat.pow 5 1074 := by decide +kernel
  have hten : Nat.pow 5 1074 * unitsPerOne = 10 ^ 1074 := by decide +kernel
  have hexponent : x.expansion.exponent = -((1074 : Nat) : Int) := rfl
  rw [readsBack_iff, hexponent]
  exact ofDecimal?_exact (units_pos h) (units_lt hs) hleast hmost hten (by decide) (by decide)

/-- Moving zeros from the coefficient to the exponent keeps the number. -/
theorem readsBack_strip (x : Magnitude) (fuel : Nat) (d : DecimalFloat) :
    x.readsBack (d.strip fuel) = x.readsBack d := by
  induction fuel generalizing d with
  | zero => rfl
  | succ fuel ih =>
    rw [DecimalFloat.strip]
    split
    · next hzero =>
      have hback : d.coefficient / 10 * 10 = d.coefficient := by omega
      rw [ih, readsBack, readsBack, ← ofDecimal?_mul_ten, hback, Int.add_sub_cancel]
    · rfl

/-- **The shortest decimal number of a magnitude reads back as the magnitude.** -/
theorem readsBack_shortest (x : Magnitude) : x.readsBack x.shortest = true := by
  rw [shortest]
  split
  · next h => rw [readsBack_iff, ofDecimal?_zero, eq_zero_of_significand h]
  · next h =>
    dsimp only
    rw [readsBack_strip]
    -- what the search finds was tested, and what it falls back to has all digits
    generalize hfound : List.find? _ _ = found
    cases found with
    | none => rw [Option.getD_none, readsBack_expansion h]
    | some d => rw [Option.getD_some, List.find?_some hfound]

theorem ofDecimal?_shortest (x : Magnitude) :
    ofDecimal? x.shortest.coefficient x.shortest.exponent = some x :=
  readsBack_iff.mp x.readsBack_shortest

theorem shortest_coefficient_pos {x : Magnitude} (h : x.significand ≠ 0) :
    0 < x.shortest.coefficient := by
  refine Nat.pos_of_ne_zero (fun hzero => h ?_)
  have hback := x.ofDecimal?_shortest
  rw [hzero, ofDecimal?_zero] at hback
  rw [← Option.some.inj hback]
  rfl

theorem shortest_of_significand_eq_zero {x : Magnitude} (h : x.significand = 0) :
    x.shortest = ⟨0, 0⟩ := by
  rw [shortest, if_pos h]

end Magnitude

end SolidityBuild
