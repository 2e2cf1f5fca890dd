import SolidityBuild.Json.Parser
import SolidityBuild.Json.Printer
import SolidityBuild.Proofs.Number.Rounding
import SolidityBuild.Proofs.Text.Runs
import SolidityBuild.Proofs.Text.Surrogates

/-!
Numbers are read as they were printed. A number is read as far as it goes, so the statements are about
a printed number with something behind it that cannot belong to a number. A whole number needs no more
than its digits; a floating-point one is printed in one of four shapes, each of which splits into a
whole part, decimals and an exponent that spell the shortest decimal number of the value, possibly with
zeros added, and the shortest decimal number reads back.
-/

set_option autoImplicit false

namespace SolidityBuild

namespace Json

/-! ## What ends a number -/

/-- Nothing of the text can belong to a number that stands before it. -/
def EndsNumber (t : Text) : Prop :=
  ∀ c ∈ t.head?, c.isDigit = false ∧ c.val ≠ 46 ∧ c.val ≠ 101 ∧ c.val ≠ 69

/-- The text does not begin with a digit. -/
def EndsDigits (t : Text) : Prop := ∀ c ∈ t.head?, c.isDigit = false

theorem EndsNumber.endsDigits {t : Text} (h : EndsNumber t) : EndsDigits t :=
  fun c hc => (h c hc).1

theorem endsDigits_cons {c : CodePoint} {t : Text} (hc : c.isDigit = false) : EndsDigits (c :: t) :=
  Text.endsRun_cons.mpr hc

/-- A run of digits is read up to what ends it. -/
theorem digitRun_append {ds t : Text} (hds : ∀ c ∈ ds, CodePoint.isDigit c = true)
    (ht : EndsDigits t) : digitRun (ds ++ t) = (ds, t) := by
  rw [digitRun]
  exact Text.span_eq_iff.mpr ⟨rfl, hds, ht⟩

/-! ## Fractions and exponents -/

theorem fraction_of_no_point {t : Text} (h : ∀ c : CodePoint, c ∈ t.head? → c.val ≠ 46) :
    fraction t = ([], t) := by
  cases t with
  | nil => rfl
  | cons c t =>
    have hc : ¬ c = CodePoint.ofChar '.' := fun heq => h c rfl (by rw [heq]; rfl)
    simp only [fraction, hc, false_and, if_false]

theorem fraction_point {ds t : Text} (hne : ds ≠ []) (hds : ∀ c ∈ ds, CodePoint.isDigit c = true)
    (ht : EndsDigits t) : fraction (46 :: (ds ++ t)) = (ds, t) := by
  have hpoint : (46 : CodePoint) = CodePoint.ofChar '.' := by decide
  simp only [fraction, digitRun_append hds ht, ← hpoint, true_and, if_pos hne]

theorem exponent_of_no_mark {t : Text}
    (h : ∀ c : CodePoint, c ∈ t.head? → c.val ≠ 101 ∧ c.val ≠ 69) : exponent t = (none, t) := by
  cases t with
  | nil => rfl
  | cons c t =>
    have hc : ¬ (c = CodePoint.ofChar 'e' ∨ c = CodePoint.ofChar 'E') := by
      rintro (heq | heq)
      · exact (h c rfl).1 (by rw [heq]; rfl)
      · exact (h c rfl).2 (by rw [heq]; rfl)
    simp only [exponent, if_neg hc]

/-- The sign of a number: a minus, or nothing. -/
def signText (negative : Bool) : Text := if negative then [45] else []

/-- An exponent is read with the sign that is always printed in front of it. -/
theorem exponent_mark {ds t : Text} (negative : Bool) (hne : ds ≠ [])
    (hds : ∀ c ∈ ds, CodePoint.isDigit c = true) (ht : EndsDigits t) :
    exponent (101 :: (if negative then 45 else 43) :: (ds ++ t)) =
      (some (if negative then -(Text.digitsValue ds : Int) else Text.digitsValue ds), t) := by
  have he : (101 : CodePoint) = CodePoint.ofChar 'e' := by decide
  have hminus : (45 : CodePoint) = CodePoint.ofChar '-' := by decide
  have hplus : ¬ (43 : CodePoint) = CodePoint.ofChar '-' := by decide
  have hplus' : (43 : CodePoint) = CodePoint.ofChar '+' := by decide
  cases negative with
  | false =>
    simp only [exponent, he, true_or, if_true, Bool.false_eq_true, if_false, if_neg hplus,
      if_pos hplus', digitRun_append hds ht, if_neg hne]
  | true =>
    simp only [exponent, he, true_or, if_true, if_pos hminus, digitRun_append hds ht, if_neg hne]

/-! ## Numbers from their parts -/

/-- The whole part of a number is one digit, or digits that do not begin with zero. -/
structure WholePart (whole : Text) : Prop where
  digits : ∀ c ∈ whole, CodePoint.isDigit c = true
  notEmpty : whole ≠ []
  noZero : whole = [48] ∨ whole.head? ≠ some 48

theorem wholePart_ofNat (n : Nat) : WholePart (Text.ofNat n) := by
  refine ⟨fun c hc => Text.isDigit_of_mem_ofNat hc, Text.ofNat_ne_nil n, ?_⟩
  rcases Nat.eq_zero_or_pos n with rfl | hn
  · exact Or.inl Text.ofNat_zero
  · right
    intro hhead
    obtain ⟨t, ht⟩ := List.head?_eq_some_iff.mp hhead
    exact Text.ofNat_head_ne_zero hn ht rfl

/-- A number is read from its sign, its whole part, its decimals and its exponent. -/
theorem readNumber_of_parts {negative : Bool} {whole decimals t t' t'' : Text} {power : Option Int}
    (hwhole : WholePart whole) (ht : EndsDigits t) (hfraction : fraction t = (decimals, t'))
    (hexponent : exponent t' = (power, t'')) :
    readNumber (signText negative ++ (whole ++ t)) =
      if decimals = [] ∧ power = none then
        if digitLimit < whole.length then .error (.digits whole.length)
        else .ok (.int (if negative then -(Text.digitsValue whole : Int)
          else Text.digitsValue whole), t'')
      else .ok (.float (Binary64.ofDecimal negative (Text.digitsValue (whole ++ decimals))
        (power.getD 0 - decimals.length)), t'') := by
  obtain ⟨hdigits, hne, hzero⟩ := hwhole
  obtain ⟨c, ws, rfl⟩ := List.exists_cons_of_ne_nil hne
  have hc : c.isDigit = true := hdigits c List.mem_cons_self
  have hminus : (45 : CodePoint) = CodePoint.ofChar '-' := by decide
  have hcminus : ¬ c = CodePoint.ofChar '-' := by
    intro heq
    rw [heq] at hc
    exact absurd hc (by decide)
  -- a zero in front is read alone, and here nothing stands behind it
  have hrun : (if c = CodePoint.ofChar '0' then ([c], ws ++ t) else digitRun (c :: (ws ++ t))) =
      (c :: ws, t) := by
    by_cases hc0 : c = CodePoint.ofChar '0'
    · have h48 : CodePoint.ofChar '0' = 48 := by decide
      rcases hzero with hone | hnone
      · obtain ⟨-, rfl⟩ := List.cons.inj hone
        rw [if_pos hc0, List.nil_append]
      · exact absurd (by rw [hc0, h48]; rfl) hnone
    · rw [if_neg hc0, ← List.cons_append]
      exact digitRun_append hdigits ht
  cases negative with
  | false =>
    simp only [readNumber, signText, Bool.false_eq_true, if_false, List.nil_append, List.cons_append,
      if_neg hcminus, hc, Bool.not_true, hrun, hfraction, hexponent]
  | true =>
    simp only [readNumber, signText, if_true, List.cons_append, List.nil_append, if_pos hminus, hc,
      Bool.not_true, Bool.false_eq_true, if_false, hrun, hfraction, hexponent]

/-! ## Whole numbers -/

theorem ofInt_eq (n : Int) : Text.ofInt n = signText (decide (n < 0)) ++ Text.ofNat n.natAbs := by
  cases n with
  | ofNat n => rfl
  | negSucc n =>
    rw [decide_eq_true (Int.negSucc_lt_zero n)]
    rfl

/-- **A whole number within the limit of digits is read as it was printed.** -/
theorem readNumber_ofInt {n : Int} (hn : (decimalDigits n.natAbs).length ≤ digitLimit) {t : Text}
    (ht : EndsNumber t) : readNumber (Text.ofInt n ++ t) = .ok (.int n, t) := by
  have hfraction := fraction_of_no_point (fun c hc => (ht c hc).2.1)
  have hexponent := exponent_of_no_mark (fun c hc => (ht c hc).2.2)
  have hlimit : ¬ digitLimit < (Text.ofNat n.natAbs).length := by
    rw [Text.length_ofNat]
    omega
  rw [ofInt_eq, List.append_assoc, readNumber_of_parts (wholePart_ofNat _) ht.endsDigits hfraction
    hexponent, if_pos ⟨rfl, rfl⟩, if_neg hlimit, Text.digitsValue_ofNat]
  by_cases hneg : n < 0
  · simp only [hneg, decide_true, if_true]
    congr 3
    omega
  · simp only [hneg, decide_false, Bool.false_eq_true, if_false]
    congr 3
    omega

/-! ## Floating-point numbers

The four shapes of `FloatFormat.place`: a value below one with zeros after the point, a value of whole
digits with `.0` after them, digits with the point among them, and digits with an exponent. -/

theorem isDigit_of_mem_zeros {k : Nat} {c : CodePoint} (hc : c ∈ List.replicate k (48 : CodePoint)) :
    c.isDigit = true := by
  rw [List.eq_of_mem_replicate hc]
  rfl

/-- A number with a point is read as the decimal number of all its digits. -/
theorem readNumber_point (negative : Bool) {whole decimals t : Text} (hwhole : WholePart whole)
    (hne : decimals ≠ []) (hdecimals : ∀ c ∈ decimals, CodePoint.isDigit c = true)
    (ht : EndsNumber t) :
    readNumber (signText negative ++ (whole ++ 46 :: (decimals ++ t))) =
      .ok (.float (Binary64.ofDecimal negative (Text.digitsValue (whole ++ decimals))
        (-decimals.length)), t) := by
  have hexponent := exponent_of_no_mark (fun c hc => (ht c hc).2.2)
  rw [readNumber_of_parts hwhole (endsDigits_cons rfl) (fraction_point hne hdecimals ht.endsDigits)
    hexponent, if_neg (fun h => hne h.1), Option.getD_none, Int.zero_sub]

/-- A number with an exponent is read as the decimal number of its digits. -/
theorem readNumber_exponent (negative : Bool) {whole decimals tail t : Text} {power : Int}
    (hwhole : WholePart whole) (htail : EndsDigits tail) (hfraction : fraction tail = (decimals, t))
    {t' : Text} (hexponent : exponent t = (some power, t')) :
    readNumber (signText negative ++ (whole ++ tail)) =
      .ok (.float (Binary64.ofDecimal negative (Text.digitsValue (whole ++ decimals))
        (power - decimals.length)), t') := by
  rw [readNumber_of_parts hwhole htail hfraction hexponent,
    if_neg (fun h => Option.some_ne_none _ h.2), Option.getD_some]

/-- The digits of an exponent, at least two of them. -/
def exponentDigits (n : Nat) : Text :=
  if (Text.ofNat n).length < 2 then 48 :: Text.ofNat n else Text.ofNat n

theorem exponentDigits_spec (n : Nat) : exponentDigits n ≠ [] ∧
    (∀ c ∈ exponentDigits n, CodePoint.isDigit c = true) ∧ Text.digitsValue (exponentDigits n) = n := by
  have hdigits : ∀ c ∈ Text.ofNat n, CodePoint.isDigit c = true :=
    fun c hc => Text.isDigit_of_mem_ofNat hc
  rw [exponentDigits]
  split
  · refine ⟨List.cons_ne_nil _ _, ?_, ?_⟩
    · intro c hc
      rcases List.mem_cons.mp hc with rfl | h
      · rfl
      · exact hdigits c h
    · have hzero : Text.digitsValue [48] = 0 := rfl
      rw [← List.singleton_append, Text.digitsValue_append, Text.digitsValue_ofNat, hzero,
        Nat.zero_mul, Nat.zero_add]
  · exact ⟨Text.ofNat_ne_nil n, hdigits, Text.digitsValue_ofNat n⟩

/-- What stands behind the digits of a number with an exponent. -/
def exponentText (power : Int) : Text :=
  101 :: (if decide (power < 0) then 45 else 43) :: exponentDigits power.natAbs

theorem exponent_exponentText (power : Int) {t : Text} (ht : EndsNumber t) :
    exponent (exponentText power ++ t) = (some power, t) := by
  obtain ⟨hne, hdigits, hvalue⟩ := exponentDigits_spec power.natAbs
  rw [exponentText, List.cons_append, List.cons_append, exponent_mark _ hne hdigits ht.endsDigits,
    hvalue]
  by_cases hneg : power < 0
  · rw [decide_eq_true hneg, if_pos rfl]
    congr 2
    omega
  · rw [decide_eq_false hneg, if_neg Bool.false_ne_true]
    congr 2
    omega

/-- Where a decimal number is written without an exponent its text has a point: before zeros and the
digits, behind the digits and zeros, or among the digits. -/
theorem place_positional {digits : Text} {lead : Int} (hlow : -4 ≤ lead) (hhigh : lead < 16) :
    FloatFormat.document.place digits lead =
      if lead < 0 then 48 :: 46 :: (List.replicate (-lead - 1).toNat 48 ++ digits)
      else if digits.length ≤ lead.toNat + 1 then
        digits ++ List.replicate (lead.toNat + 1 - digits.length) 48 ++ [46, 48]
      else digits.take (lead.toNat + 1) ++ 46 :: digits.drop (lead.toNat + 1) := by
  have hfrom : FloatFormat.document.positionalFrom = -4 := rfl
  have hbelow : FloatFormat.document.positionalBelow = 16 := rfl
  have hzeroPoint : Text.ofString "0." = [48, 46] := rfl
  have hpointZero : Text.ofString ".0" = [46, 48] := rfl
  have hpoint : Text.ofString "." = [46] := rfl
  rw [FloatFormat.place, hfrom, hbelow, if_pos ⟨hlow, hhigh⟩]
  split
  · rw [hzeroPoint, Text.times_zero_eq]
    rfl
  · simp only [hpointZero, hpoint, Text.times_zero_eq]
    split
    · rfl
    · rw [List.append_assoc]
      rfl

/-- Elsewhere the point stands behind the first digit, if there are more, and an exponent follows. -/
theorem place_scientific {d : CodePoint} {ds : Text} {lead : Int} (h : ¬ (-4 ≤ lead ∧ lead < 16)) :
    FloatFormat.document.place (d :: ds) lead =
      if ds = [] then d :: exponentText lead else d :: 46 :: (ds ++ exponentText lead) := by
  have hfrom : FloatFormat.document.positionalFrom = -4 := rfl
  have hbelow : FloatFormat.document.positionalBelow = 16 := rfl
  have hminus : Text.ofString "e-" = [101, 45] := rfl
  have hplus : Text.ofString "e+" = [101, 43] := rfl
  have hzero : Text.ofString "0" = [48] := rfl
  have hpoint : Text.ofString "." = [46] := rfl
  have htail : ((if lead < 0 then Text.ofString "e-" else Text.ofString "e+") ++
      (if (Text.ofNat lead.natAbs).length < 2 then Text.ofString "0" ++ Text.ofNat lead.natAbs
        else Text.ofNat lead.natAbs)) = exponentText lead := by
    rw [exponentText, exponentDigits, hminus, hplus, hzero]
    by_cases hneg : lead < 0
    · rw [if_pos hneg, decide_eq_true hneg, if_pos rfl]
      rfl
    · rw [if_neg hneg, decide_eq_false hneg, if_neg Bool.false_ne_true]
      rfl
  rw [FloatFormat.place, hfrom, hbelow, if_neg h]
  simp only [htail, hpoint]
  cases ds with
  | nil => rfl
  | cons d' ds => rw [if_neg (List.cons_ne_nil _ _)]; simp

/-- Digits that begin as those of a number other than zero are a whole part. -/
theorem wholePart_of_head {c : Nat} (hc : 0 < c) {whole : Text} (hne : whole ≠ [])
    (hdigits : ∀ d ∈ whole, CodePoint.isDigit d = true)
    (hhead : whole.head? = (Text.ofNat c).head?) : WholePart whole := by
  refine ⟨hdigits, hne, Or.inr ?_⟩
  rw [hhead]
  intro hzero
  obtain ⟨t, ht⟩ := List.head?_eq_some_iff.mp hzero
  exact Text.ofNat_head_ne_zero hc ht rfl

theorem ofDecimal_mul_pow (negative : Bool) (c k : Nat) (e : Int) :
    Binary64.ofDecimal negative (c * 10 ^ k) (e - k) = Binary64.ofDecimal negative c e := by
  rw [Binary64.ofDecimal, Magnitude.ofDecimal?_mul_pow]
  rfl

section Place

variable {negative : Bool} {c : Nat} {lead : Int} {t : Text}

/-- Zeros stand between the point and the digits. -/
theorem readNumber_place_below_one (hneg : lead < 0) (ht : EndsNumber t) :
    readNumber (signText negative ++
        (48 :: 46 :: (List.replicate (-lead - 1).toNat 48 ++ Text.ofNat c) ++ t)) =
      .ok (.float (Binary64.ofDecimal negative c (lead + 1 - (Text.ofNat c).length)), t) := by
  have hwhole : WholePart [48] :=
    ⟨fun d hd => isDigit_of_mem_zeros (k := 1) hd, List.cons_ne_nil _ _, Or.inl rfl⟩
  have hne : List.replicate (-lead - 1).toNat 48 ++ Text.ofNat c ≠ [] :=
    List.append_ne_nil_of_right_ne_nil _ (Text.ofNat_ne_nil c)
  have hdigits : ∀ d ∈ List.replicate (-lead - 1).toNat 48 ++ Text.ofNat c, CodePoint.isDigit d = true :=
    List.forall_mem_append.mpr
      ⟨fun d hd => isDigit_of_mem_zeros hd, fun d hd => Text.isDigit_of_mem_ofNat hd⟩
  have hread := readNumber_point negative hwhole hne hdigits ht
  have hvalue : Text.digitsValue ([48] ++ (List.replicate (-lead - 1).toNat 48 ++ Text.ofNat c)) =
      c := by
    have hzero : Text.digitsValue [48] = 0 := rfl
    rw [Text.digitsValue_append, Text.digitsValue_append, Text.digitsValue_zeros,
      Text.digitsValue_ofNat, hzero, Nat.zero_mul, Nat.zero_mul, Nat.zero_add, Nat.zero_add]
  have hpower : -((List.replicate (-lead - 1).toNat (48 : CodePoint) ++ Text.ofNat c).length : Int) =
      lead + 1 - (Text.ofNat c).length := by
    rw [List.length_append, List.length_replicate]
    omega
  rw [hvalue, hpower] at hread
  exact hread

/-- Zeros stand between the digits and the point. -/
theorem readNumber_place_whole {m : Nat} (hzero : c = 0 → m = 0) (ht : EndsNumber t) :
    readNumber (signText negative ++ (Text.ofNat c ++ List.replicate m 48 ++ [46, 48] ++ t)) =
      .ok (.float (Binary64.ofDecimal negative c m), t) := by
  have hdigits : ∀ d ∈ Text.ofNat c ++ List.replicate m 48, CodePoint.isDigit d = true :=
    List.forall_mem_append.mpr
      ⟨fun d hd => Text.isDigit_of_mem_ofNat hd, fun d hd => isDigit_of_mem_zeros hd⟩
  have hne : Text.ofNat c ++ List.replicate m 48 ≠ [] :=
    List.append_ne_nil_of_left_ne_nil (Text.ofNat_ne_nil c) _
  have hwhole : WholePart (Text.ofNat c ++ List.replicate m 48) := by
    rcases Nat.eq_zero_or_pos c with rfl | hc
    · rw [hzero rfl, List.replicate_zero, List.append_nil]
      exact wholePart_ofNat 0
    · exact wholePart_of_head hc hne hdigits
        (List.head?_append_of_ne_nil _ (Text.ofNat_ne_nil c))
  have hzero : ([48] : Text) ≠ [] := List.cons_ne_nil _ _
  have hread := readNumber_point negative hwhole hzero (fun d hd => isDigit_of_mem_zeros (k := 1) hd) ht
  -- with the zero behind the point there is one factor of ten more, which the exponent takes back
  have hvalue : Text.digitsValue (Text.ofNat c ++ List.replicate m 48 ++ [48]) = c * 10 ^ (m + 1) := by
    have hlast : Text.digitsValue [48] = 0 := rfl
    rw [Text.digitsValue_append, Text.digitsValue_append, Text.digitsValue_zeros,
      Text.digitsValue_ofNat, hlast, List.length_replicate, Nat.pow_succ, Nat.add_zero, Nat.add_zero,
      Nat.mul_assoc]
    rfl
  have hpower : -(([48] : Text).length : Int) = (m : Int) - ((m + 1 : Nat) : Int) := by
    rw [List.length_singleton]
    omega
  rw [hvalue, hpower, ofDecimal_mul_pow] at hread
  rw [← hread, List.append_assoc (Text.ofNat c ++ List.replicate m 48)]
  rfl

/-- The point stands among the digits. -/
theorem readNumber_place_among {w : Nat} (hw : 0 < w) (hlt : w < (Text.ofNat c).length)
    (ht : EndsNumber t) :
    readNumber (signText negative ++ ((Text.ofNat c).take w ++ 46 :: (Text.ofNat c).drop w ++ t)) =
      .ok (.float (Binary64.ofDecimal negative c (w - (Text.ofNat c).length)), t) := by
  -- there are digits on both sides of the point, and zero has only one
  have hc : 0 < c := by
    rcases Nat.eq_zero_or_pos c with rfl | hc
    · rw [Text.ofNat_zero, List.length_singleton] at hlt
      omega
    · exact hc
  have htake : (Text.ofNat c).take w ≠ [] := by
    rw [ne_eq, List.take_eq_nil_iff]
    rintro (rfl | hnil)
    · omega
    · exact Text.ofNat_ne_nil c hnil
  have hhead : ((Text.ofNat c).take w).head? = (Text.ofNat c).head? := by
    rw [List.head?_take, if_neg hw.ne']
  have hwhole := wholePart_of_head hc htake
    (fun d hd => Text.isDigit_of_mem_ofNat (List.mem_of_mem_take hd)) hhead
  have hdrop : (Text.ofNat c).drop w ≠ [] := by
    rw [ne_eq, List.drop_eq_nil_iff]
    omega
  have hread := readNumber_point negative hwhole hdrop
    (fun d hd => Text.isDigit_of_mem_ofNat (List.mem_of_mem_drop hd)) ht
  have hpower : -(((Text.ofNat c).drop w).length : Int) = w - (Text.ofNat c).length := by
    rw [List.length_drop]
    omega
  rw [List.take_append_drop, Text.digitsValue_ofNat, hpower] at hread
  rw [← hread, List.append_assoc]
  rfl

/-- An exponent stands behind the digits. -/
theorem readNumber_place_scientific (h : ¬ (-4 ≤ lead ∧ lead < 16)) (hc : 0 < c) (ht : EndsNumber t) :
    readNumber (signText negative ++ (FloatFormat.document.place (Text.ofNat c) lead ++ t)) =
      .ok (.float (Binary64.ofDecimal negative c (lead + 1 - (Text.ofNat c).length)), t) := by
  obtain ⟨d, ds, hds⟩ := List.exists_cons_of_ne_nil (Text.ofNat_ne_nil c)
  have hdigits : ∀ x ∈ d :: ds, CodePoint.isDigit x = true := by
    rw [← hds]
    exact fun x hx => Text.isDigit_of_mem_ofNat hx
  have hwhole : WholePart [d] := by
    refine wholePart_of_head hc (List.cons_ne_nil _ _) ?_ (by rw [hds]; rfl)
    intro x hx
    rw [List.mem_singleton.mp hx]
    exact hdigits d List.mem_cons_self
  have hends : EndsDigits (exponentText lead ++ t) := endsDigits_cons rfl
  have hexponent := exponent_exponentText lead ht
  have hvalue : Text.digitsValue ([d] ++ ds) = c := by
    rw [List.singleton_append, ← hds, Text.digitsValue_ofNat]
  rw [hds, place_scientific h, List.length_cons]
  by_cases hnil : ds = []
  · have hfraction : fraction (exponentText lead ++ t) = (ds, exponentText lead ++ t) := by
      rw [hnil]
      exact fraction_of_no_point (by rintro x hx; rw [← Option.mem_some_iff.mp hx]; decide)
    have hread := readNumber_exponent negative hwhole hends hfraction hexponent
    have hpower : lead - (ds.length : Int) = lead + 1 - ((ds.length + 1 : Nat) : Int) := by omega
    rw [hvalue, hpower] at hread
    rw [if_pos hnil]
    exact hread
  · have hfraction : fraction (46 :: (ds ++ (exponentText lead ++ t))) = (ds, exponentText lead ++ t) :=
      fraction_point hnil (fun x hx => hdigits x (List.mem_cons_of_mem _ hx)) hends
    have hread := readNumber_exponent negative hwhole (endsDigits_cons rfl) hfraction
      hexponent
    have hpower : lead - (ds.length : Int) = lead + 1 - ((ds.length + 1 : Nat) : Int) := by omega
    rw [hvalue, hpower] at hread
    rw [if_neg hnil, List.cons_append, List.cons_append, List.append_assoc]
    exact hread

/-- **A decimal number is read as it was placed.** -/
theorem readNumber_place {e : Int} (hzero : c = 0 → e = 0) (ht : EndsNumber t) :
    readNumber (signText negative ++
        (FloatFormat.document.place (Text.ofNat c) (e + (Text.ofNat c).length - 1) ++ t)) =
      .ok (.float (Binary64.ofDecimal negative c e), t) := by
  have hlength : 0 < (Text.ofNat c).length := List.length_pos_iff.mpr (Text.ofNat_ne_nil c)
  have hback : e + (Text.ofNat c).length - 1 + 1 - (Text.ofNat c).length = e := by omega
  by_cases hrange : -4 ≤ e + (Text.ofNat c).length - 1 ∧ e + (Text.ofNat c).length - 1 < 16
  · rw [place_positional hrange.1 hrange.2]
    split
    · next hneg => rw [readNumber_place_below_one hneg ht, hback]
    · next hneg =>
      split
      · next hle =>
        have hpower : (((e + (Text.ofNat c).length - 1).toNat + 1 - (Text.ofNat c).length : Nat) : Int) =
            e := by omega
        have hzeros : c = 0 → (e + (Text.ofNat c).length - 1).toNat + 1 - (Text.ofNat c).length = 0 := by
          intro hc
          have := hzero hc
          omega
        rw [readNumber_place_whole hzeros ht, hpower]
      · next hle =>
        have hpower : (((e + (Text.ofNat c).length - 1).toNat + 1 : Nat) : Int) -
            (Text.ofNat c).length = e := by omega
        rw [readNumber_place_among (by omega) (by omega) ht, hpower]
  -- zero has the exponent zero, so it is in the range
  · have hc : 0 < c := by
      rcases Nat.eq_zero_or_pos c with rfl | hc
      · rw [hzero rfl, Text.ofNat_zero, List.length_singleton] at hrange
        omega
      · exact hc
    rw [readNumber_place_scientific hrange hc ht, hback]

end Place

theorem shortestText_finite (negative : Bool) (x : Magnitude) (nanText infinityText : Text) :
    (Binary64.finite negative x).shortestText nanText infinityText = signText negative ++
      FloatFormat.document.place (Text.ofNat x.shortest.coefficient)
        (x.shortest.exponent + (Text.ofNat x.shortest.coefficient).length - 1) := by
  cases negative <;> rfl

/-- **A finite floating-point number is read as it was printed.** -/
theorem readNumber_printFloat (negative : Bool) (x : Magnitude) {t : Text} (ht : EndsNumber t) :
    readNumber (printFloat (.finite negative x) ++ t) = .ok (.float (.finite negative x), t) := by
  have hzero : x.shortest.coefficient = 0 → x.shortest.exponent = 0 := by
    intro hc
    have hsignificand : x.significand = 0 := by
      by_contra hne
      exact (Magnitude.shortest_coefficient_pos hne).ne' hc
    rw [Magnitude.shortest_of_significand_eq_zero hsignificand]
  rw [printFloat, shortestText_finite, List.append_assoc, readNumber_place hzero ht,
    Binary64.ofDecimal, x.ofDecimal?_shortest]

/-! ## What a printed number looks like

To tell a number from other values its first code point suffices, and none of its code points lies
beyond ASCII or is a control. -/

/-- A digit with an optional minus before it, and visible code points after it. -/
def NumberShape (t : Text) : Prop :=
  ∃ (negative : Bool) (d : CodePoint) (s : Text), t = signText negative ++ d :: s ∧
    d.isDigit = true ∧ ∀ c ∈ s, c.Visible

theorem visible_of_isDigit {c : CodePoint} (hc : c.isDigit = true) : c.Visible := by
  rw [CodePoint.isDigit, Bool.and_eq_true, decide_eq_true_eq, decide_eq_true_eq] at hc
  exact ⟨by omega, by omega⟩

theorem numberShape_of_forall {negative : Bool} {d : CodePoint} {s : Text} (hd : d.isDigit = true)
    (hs : ∀ c ∈ d :: s, c.Visible) : NumberShape (signText negative ++ d :: s) :=
  ⟨negative, d, s, rfl, hd, fun c hc => hs c (List.mem_cons_of_mem _ hc)⟩

theorem visible_of_numberShape {t : Text} (h : NumberShape t) : ∀ c ∈ t, c.Visible := by
  obtain ⟨negative, d, s, rfl, hd, hs⟩ := h
  have hsign : ∀ c ∈ signText negative, c.Visible := by
    cases negative with
    | false => exact fun c hc => absurd hc List.not_mem_nil
    | true => exact List.forall_mem_singleton.mpr (by decide)
  exact List.forall_mem_append.mpr ⟨hsign, List.forall_mem_cons.mpr ⟨visible_of_isDigit hd, hs⟩⟩

theorem numberShape_ofInt (n : Int) : NumberShape (Text.ofInt n) := by
  obtain ⟨d, s, hs⟩ := List.exists_cons_of_ne_nil (Text.ofNat_ne_nil n.natAbs)
  have hdigits : ∀ c ∈ d :: s, CodePoint.isDigit c = true := by
    rw [← hs]
    exact fun c hc => Text.isDigit_of_mem_ofNat hc
  rw [ofInt_eq, hs]
  exact numberShape_of_forall (hdigits d List.mem_cons_self) fun c hc => visible_of_isDigit (hdigits c hc)

theorem exponentText_visible {power : Int} {c : CodePoint} (hc : c ∈ exponentText power) :
    c.Visible := by
  rw [exponentText, List.mem_cons, List.mem_cons] at hc
  rcases hc with rfl | rfl | hc
  · decide
  · split <;> decide
  · exact visible_of_isDigit ((exponentDigits_spec _).2.1 c hc)

theorem numberShape_place (negative : Bool) (n : Nat) (lead : Int) :
    NumberShape (signText negative ++ FloatFormat.document.place (Text.ofNat n) lead) := by
  obtain ⟨d, ds, hds⟩ := List.exists_cons_of_ne_nil (Text.ofNat_ne_nil n)
  have hdigits : ∀ c ∈ d :: ds, CodePoint.isDigit c = true := by
    rw [← hds]
    exact fun c hc => Text.isDigit_of_mem_ofNat hc
  have hd : d.isDigit = true := hdigits d List.mem_cons_self
  have hvisible : ∀ c ∈ d :: ds, c.Visible := fun c hc => visible_of_isDigit (hdigits c hc)
  have hzeros : ∀ {k : Nat}, ∀ c ∈ List.replicate k (48 : CodePoint), c.Visible :=
    fun c hc => visible_of_isDigit (isDigit_of_mem_zeros hc)
  have hpoint : (46 : CodePoint).Visible := by decide
  have happend : ∀ {s t : Text}, (∀ c ∈ s, c.Visible) → (∀ c ∈ t, c.Visible) →
      ∀ c ∈ s ++ t, c.Visible := fun hs ht => List.forall_mem_append.mpr ⟨hs, ht⟩
  have hcons : ∀ {e : CodePoint} {t : Text}, e.Visible → (∀ c ∈ t, c.Visible) →
      ∀ c ∈ e :: t, c.Visible := fun he ht => List.forall_mem_cons.mpr ⟨he, ht⟩
  have htake : ∀ k, ∀ c ∈ (d :: ds).take k, c.Visible := fun k c hc => hvisible c (List.mem_of_mem_take hc)
  have hdrop : ∀ k, ∀ c ∈ (d :: ds).drop k, c.Visible := fun k c hc => hvisible c (List.mem_of_mem_drop hc)
  rw [hds]
  -- the first digit comes first, except below one, where a zero does
  by_cases hrange : -4 ≤ lead ∧ lead < 16
  · rw [place_positional hrange.1 hrange.2]
    split_ifs
    · exact numberShape_of_forall (by decide) (hcons (by decide) (hcons hpoint (happend hzeros hvisible)))
    · exact numberShape_of_forall hd (happend (happend hvisible hzeros)
        (hcons hpoint (hzeros (k := 1))))
    · rw [List.take_succ_cons, List.cons_append]
      exact numberShape_of_forall hd (happend (htake (lead.toNat + 1)) (hcons hpoint (hdrop _)))
  · rw [place_scientific hrange]
    split_ifs
    · exact numberShape_of_forall hd (hcons (hvisible d List.mem_cons_self) fun c hc => exponentText_visible hc)
    · exact numberShape_of_forall hd (hcons (hvisible d List.mem_cons_self) (hcons hpoint
        (happend (fun c hc => hvisible c (List.mem_cons_of_mem _ hc)) fun c hc => exponentText_visible hc)))

theorem numberShape_printFloat (negative : Bool) (x : Magnitude) :
    NumberShape (printFloat (.finite negative x)) := by
  rw [printFloat, shortestText_finite]
  exact numberShape_place _ _ _

end Json

end SolidityBuild
