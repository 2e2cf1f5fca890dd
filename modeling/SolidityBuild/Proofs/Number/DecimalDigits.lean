import SolidityBuild.Number.Decimal
import Mathlib.Data.Nat.Digits.Lemmas
import Mathlib.Tactic.Ring

/-!
Decimal digits, both ways. The digits of a number are those of `Nat.digits` read from the other end, so
reading them gives the number back, none of them is ten or more, and only zero has a zero in front. On
texts: a number's decimal text holds digits only, and zeros before or after a run of digits do what they
do to the number.
-/

set_option autoImplicit false

namespace SolidityBuild

/-! ## Digits of numbers -/

/-- The digits come out in front of whatever was collected behind them. -/
theorem decimalDigitsBefore_eq (n : Nat) (hn : 0 < n) (tail : List Nat) :
    decimalDigitsBefore n tail = (Nat.digits 10 n).reverse ++ tail := by
  -- the step goes to a tenth of the number, with one more digit collected
  induction n using Nat.strong_induction_on generalizing tail with
  | _ n ih =>
    rw [decimalDigitsBefore]
    by_cases hlt : n < 10
    · rw [if_pos hlt, Nat.digits_of_lt 10 n hn.ne' hlt]
      rfl
    · rw [if_neg hlt, ih (n / 10) (by omega) (by omega), Nat.digits_def' (by omega) hn,
        List.reverse_cons, List.append_assoc]
      rfl

theorem decimalDigits_zero : decimalDigits 0 = [0] := by
  rw [decimalDigits, decimalDigitsBefore, if_pos (by omega)]

theorem decimalDigits_eq {n : Nat} (hn : 0 < n) : decimalDigits n = (Nat.digits 10 n).reverse := by
  rw [decimalDigits, decimalDigitsBefore_eq n hn, List.append_nil]

theorem decimalDigits_ne_nil (n : Nat) : decimalDigits n ≠ [] := by
  rcases Nat.eq_zero_or_pos n with rfl | hn
  · rw [decimalDigits_zero]
    exact List.cons_ne_nil _ _
  · rw [decimalDigits_eq hn, ne_eq, List.reverse_eq_nil_iff]
    exact Nat.digits_ne_nil_iff_ne_zero.mpr hn.ne'

theorem decimalDigits_lt {n d : Nat} (hd : d ∈ decimalDigits n) : d < 10 := by
  rcases Nat.eq_zero_or_pos n with rfl | hn
  · rw [decimalDigits_zero, List.mem_singleton] at hd
    omega
  · rw [decimalDigits_eq hn, List.mem_reverse] at hd
    exact Nat.digits_lt_base (by omega) hd

/-- Only zero is written with a zero in front. -/
theorem decimalDigits_head_ne_zero {n d : Nat} {ds : List Nat} (hn : 0 < n)
    (h : decimalDigits n = d :: ds) : d ≠ 0 := by
  have hne : Nat.digits 10 n ≠ [] := Nat.digits_ne_nil_iff_ne_zero.mpr hn.ne'
  -- the digit in front is the last one of `Nat.digits`
  have hlast := Nat.getLast_digit_ne_zero 10 hn.ne'
  rw [decimalDigits_eq hn, List.reverse_eq_cons_iff] at h
  simpa [h] using hlast

/-- A number of at most `k` digits is one below `10 ^ k`. -/
theorem length_decimalDigits_le_iff {n k : Nat} (hk : 0 < k) :
    (decimalDigits n).length ≤ k ↔ n < 10 ^ k := by
  rcases Nat.eq_zero_or_pos n with rfl | hn
  · rw [decimalDigits_zero]
    exact ⟨fun _ => Nat.pow_pos (by omega), fun _ => hk⟩
  · rw [decimalDigits_eq hn, List.length_reverse, Nat.digits_length_le_iff (by omega)]

theorem lt_length_decimalDigits_iff {n k : Nat} (hn : 0 < n) :
    k < (decimalDigits n).length ↔ 10 ^ k ≤ n := by
  rw [decimalDigits_eq hn, List.length_reverse, Nat.lt_digits_length_iff (by omega)]

theorem length_decimalDigits_mul_ten {n : Nat} (hn : 0 < n) :
    (decimalDigits (n * 10)).length = (decimalDigits n).length + 1 := by
  rw [decimalDigits_eq hn, decimalDigits_eq (by omega), Nat.mul_comm n 10,
    Nat.digits_base_mul (by omega) hn]
  simp

/-! ## The number that digits spell -/

theorem ofDigits_append_singleton (base : Nat) (ds : List Nat) (d : Nat) :
    ofDigits base (ds ++ [d]) = ofDigits base ds * base + d := by
  rw [ofDigits, List.foldl_append]
  rfl

/-- Reading from the front is `Nat.ofDigits` on the digits from the back. -/
theorem ofDigits_eq (base : Nat) (ds : List Nat) :
    ofDigits base ds = Nat.ofDigits base ds.reverse := by
  -- from the right, since the last digit is the one that is added last
  induction ds using List.reverseRecOn with
  | nil => rfl
  | append_singleton ds d ih =>
    rw [ofDigits_append_singleton, ih, List.reverse_append, List.reverse_singleton,
      List.singleton_append, Nat.ofDigits_cons]
    ring

theorem ofDigits_append (base : Nat) (ds es : List Nat) :
    ofDigits base (ds ++ es) = ofDigits base ds * base ^ es.length + ofDigits base es := by
  rw [ofDigits_eq, ofDigits_eq, ofDigits_eq, List.reverse_append, Nat.ofDigits_append,
    List.length_reverse]
  ring

theorem ofDigits_replicate_zero (base k : Nat) : ofDigits base (List.replicate k 0) = 0 := by
  rw [ofDigits_eq, List.reverse_replicate, Nat.ofDigits_replicate_zero]

theorem ofDigits_lt_pow {ds : List Nat} (h : ∀ d ∈ ds, d < 10) : ofDigits 10 ds < 10 ^ ds.length := by
  rw [ofDigits_eq, ← List.length_reverse]
  exact Nat.ofDigits_lt_base_pow_length (by omega) (by simpa using h)

/-- **Reading the digits of a number gives the number.** -/
theorem ofDigits_decimalDigits (n : Nat) : ofDigits 10 (decimalDigits n) = n := by
  rcases Nat.eq_zero_or_pos n with rfl | hn
  · rw [decimalDigits_zero]
    rfl
  · rw [decimalDigits_eq hn, ofDigits_eq, List.reverse_reverse, Nat.ofDigits_digits]

/-! ## Digits in texts -/

namespace CodePoint

theorem ofDigit_val {d : Nat} (hd : d < 10) : (ofDigit d).val = 48 + d := by
  simp only [ofDigit, Nat.mod_eq_of_lt hd]

theorem isDigit_ofDigit (d : Nat) : (ofDigit d).isDigit = true := by
  have : d % 10 < 10 := Nat.mod_lt _ (by omega)
  rw [isDigit, Bool.and_eq_true, decide_eq_true_eq, decide_eq_true_eq]
  simp only [ofDigit]
  omega

end CodePoint

namespace Text

/-- The value of a digit is its distance from the code point of zero. -/
theorem digitsValue_map_ofDigit {ds : List Nat} (h : ∀ d ∈ ds, d < 10) :
    digitsValue (ds.map CodePoint.ofDigit) = ofDigits 10 ds := by
  rw [digitsValue, List.map_map]
  congr 1
  conv_rhs => rw [← List.map_id ds]
  refine List.map_congr_left (fun d hd => ?_)
  rw [Function.comp_apply, CodePoint.ofDigit_val (h d hd)]
  simp

theorem digitsValue_append (s t : Text) :
    digitsValue (s ++ t) = digitsValue s * 10 ^ t.length + digitsValue t := by
  rw [digitsValue, List.map_append, ofDigits_append, List.length_map]
  rfl

theorem times_zero_eq (k : Nat) : times k "0" = List.replicate k 48 := by
  induction k with
  | zero => rfl
  | succ k ih =>
    rw [times, List.replicate_succ, List.flatten_cons, ← times, ih]
    rfl

theorem digitsValue_zeros (k : Nat) : digitsValue (List.replicate k 48) = 0 := by
  rw [digitsValue, List.map_replicate]
  exact ofDigits_replicate_zero 10 k

theorem digitsValue_ofNat (n : Nat) : digitsValue (ofNat n) = n := by
  rw [ofNat, digitsValue_map_ofDigit (fun d hd => decimalDigits_lt hd), ofDigits_decimalDigits]

theorem isDigit_of_mem_ofNat {n : Nat} {c : CodePoint} (hc : c ∈ ofNat n) : c.isDigit = true := by
  obtain ⟨d, -, rfl⟩ := List.mem_map.mp hc
  exact CodePoint.isDigit_ofDigit d

theorem ofNat_ne_nil (n : Nat) : ofNat n ≠ [] := by
  rw [ofNat, ne_eq, List.map_eq_nil_iff]
  exact decimalDigits_ne_nil n

theorem length_ofNat (n : Nat) : (ofNat n).length = (decimalDigits n).length := List.length_map _

/-- Only zero has a text that begins with the digit zero. -/
theorem ofNat_head_ne_zero {n : Nat} {c : CodePoint} {t : Text} (hn : 0 < n)
    (h : ofNat n = c :: t) : c ≠ 48 := by
  obtain ⟨d, ds, hds, rfl, -⟩ := List.map_eq_cons_iff.mp h
  have hd := decimalDigits_head_ne_zero hn hds
  have hlt : d < 10 := decimalDigits_lt (n := n) (by rw [hds]; exact List.mem_cons_self)
  intro heq
  have hval := congrArg Fin.val heq
  rw [CodePoint.ofDigit_val hlt] at hval
  have : ((48 : CodePoint) : Nat) = 48 := rfl
  omega

theorem ofNat_zero : ofNat 0 = [48] := by
  rw [ofNat, decimalDigits_zero]
  rfl

/-- The number that digits spell has at most as many digits as were read. -/
theorem length_decimalDigits_digitsValue {t : Text} (hne : t ≠ [])
    (h : ∀ c ∈ t, CodePoint.isDigit c = true) :
    (decimalDigits (digitsValue t)).length ≤ t.length := by
  -- zeros in front are read but not written, so the lengths need not agree
  have hlt : ∀ d ∈ t.map (fun c : CodePoint => c.val - 48), d < 10 := by
    intro d hd
    obtain ⟨c, hc, rfl⟩ := List.mem_map.mp hd
    have := h c hc
    simp only [CodePoint.isDigit, Bool.and_eq_true, decide_eq_true_eq] at this
    omega
  rw [length_decimalDigits_le_iff (List.length_pos_iff.mpr hne)]
  have := ofDigits_lt_pow hlt
  rwa [List.length_map] at this

end Text

end SolidityBuild
