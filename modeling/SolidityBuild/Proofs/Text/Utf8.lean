import SolidityBuild.Proofs.Text.Surrogates
import Mathlib.Tactic.IntervalCases

/-!
Decoding undoes encoding. The octets of a code point that is no surrogate are announced by the first of
them and continued by the others, so they are read back as this code point whatever octets follow; the
octets of a text are read back one code point at a time. In particular no two texts without surrogates have
the same octets.
-/

set_option autoImplicit false

namespace SolidityBuild

namespace Text

/-! ## One sequence of octets -/

/-- An octet that continues a sequence carries six bits. -/
theorem continueSequence_cons {missing seen bits : Nat} {low high : UInt8} {o : Nat} {rest : Octets}
    (ho : o < 256) (hlow : low.toNat ≤ o) (hhigh : o ≤ high.toNat) :
    continueSequence (missing + 1) seen bits low high (UInt8.ofNat o :: rest) =
      continueSequence missing (seen + 1) (bits * 64 + (o - 0x80)) 0x80 0xBF rest := by
  have htoNat : (UInt8.ofNat o).toNat = o := UInt8.toNat_ofNat_of_lt' ho
  have hin : low ≤ UInt8.ofNat o ∧ UInt8.ofNat o ≤ high := by
    rw [UInt8.le_iff_toNat_le, UInt8.le_iff_toNat_le, htoNat]
    exact ⟨hlow, hhigh⟩
  rw [continueSequence, if_pos hin, htoNat]

/-- Where nothing narrows it, the octet may carry any six bits. -/
theorem continueSequence_tail (missing seen bits n : Nat) (rest : Octets) :
    continueSequence (missing + 1) seen bits 0x80 0xBF (UInt8.ofNat (0x80 + n % 64) :: rest) =
      continueSequence missing (seen + 1) (bits * 64 + n % 64) 0x80 0xBF rest := by
  have hhigh : 0x80 + n % 64 ≤ (0xBF : UInt8).toNat := by
    rw [show (0xBF : UInt8).toNat = 0xBF from rfl]
    omega
  rw [continueSequence_cons (by omega) (Nat.le_add_right 0x80 _) hhigh, Nat.add_sub_cancel_left]

/-- What an announced and continued sequence is decoded to. -/
theorem decodeFrom_sequence {position following bits : Nat} {first low high : UInt8} {octets rest : Octets}
    {c : CodePoint} (hfirst : announced? first = some (following, low, high, bits))
    (hrest : continueSequence following 1 bits low high octets = .ok (c.val, rest)) :
    decodeFrom position (first :: octets) = (decodeFrom (position + 1 + following) rest).map (c :: ·) := by
  rw [decodeFrom, hfirst]
  dsimp only
  split
  · next h =>
    rw [hrest] at h
    cases h
  · next n rest' h =>
    rw [hrest] at h
    obtain ⟨rfl, rfl⟩ := Prod.mk.inj (Except.ok.inj h)
    rw [dif_pos c.isLt]

theorem announced?_one : ∀ n < 0x80, announced? (UInt8.ofNat n) = some (0, 0x80, 0xBF, n) := by decide

theorem announced?_two {n : Nat} (hlow : 2 ≤ n) (hhigh : n < 0x20) :
    announced? (UInt8.ofNat (0xC0 + n)) = some (1, 0x80, 0xBF, n) := by
  interval_cases n <;> rfl

/-- The second octet is bounded from below where the form would not be the shortest, and from above where
the code points are surrogates. -/
theorem announced?_three : ∀ n < 0x10, announced? (UInt8.ofNat (0xE0 + n)) =
    some (2, if n = 0 then 0xA0 else 0x80, if n = 13 then 0x9F else 0xBF, n) := by decide

/-- Here the upper bound is that of the last plane. -/
theorem announced?_four : ∀ n < 5, announced? (UInt8.ofNat (0xF0 + n)) =
    some (3, if n = 0 then 0x90 else 0x80, if n = 4 then 0x8F else 0xBF, n) := by decide

/-- The octets of a code point are announced and continued, whatever follows them. -/
theorem exists_sequence_octetsOf {c : CodePoint} (hc : c.isSurrogate = false) :
    ∃ first octets following low high bits, octetsOf c = first :: octets ∧
      announced? first = some (following, low, high, bits) ∧
        ∀ rest, continueSequence following 1 bits low high (octets ++ rest) = .ok (c.val, rest) := by
  have hlt := c.isLt
  rw [CodePoint.isSurrogate, Bool.and_eq_false_iff, decide_eq_false_iff_not, decide_eq_false_iff_not] at hc
  unfold octetsOf
  generalize c.val = n at hc hlt
  dsimp only
  split_ifs with hone htwo hthree
  · exact ⟨_, _, _, _, _, _, rfl, announced?_one n hone, fun _ => rfl⟩
  · refine ⟨_, _, _, _, _, _, rfl, announced?_two (by omega : 2 ≤ n / 64) (by omega), fun rest => ?_⟩
    rw [List.cons_append, continueSequence_tail, List.nil_append, continueSequence]
    exact congrArg (fun m => Except.ok (m, rest)) (by omega)
  · refine ⟨_, _, _, _, _, _, rfl, announced?_three (n / 4096) (by omega), fun rest => ?_⟩
    have hlow : (if n / 4096 = 0 then 0xA0 else 0x80 : UInt8).toNat ≤ 0x80 + n / 64 % 64 := by
      split_ifs with h
      · simp; omega
      · simp
    have hhigh : 0x80 + n / 64 % 64 ≤ (if n / 4096 = 13 then 0x9F else 0xBF : UInt8).toNat := by
      split_ifs with h
      · simp; omega
      · simp; omega
    rw [List.cons_append, continueSequence_cons (by omega) hlow hhigh, List.cons_append,
      continueSequence_tail, List.nil_append, continueSequence]
    exact congrArg (fun m => Except.ok (m, rest)) (by omega)
  · refine ⟨_, _, _, _, _, _, rfl, announced?_four (n / 262144) (by omega), fun rest => ?_⟩
    have hlow : (if n / 262144 = 0 then 0x90 else 0x80 : UInt8).toNat ≤ 0x80 + n / 4096 % 64 := by
      split_ifs with h
      · simp; omega
      · simp
    have hhigh : 0x80 + n / 4096 % 64 ≤ (if n / 262144 = 4 then 0x8F else 0xBF : UInt8).toNat := by
      split_ifs with h
      · simp; omega
      · simp; omega
    rw [List.cons_append, continueSequence_cons (by omega) hlow hhigh, List.cons_append,
      continueSequence_tail, List.cons_append, continueSequence_tail, List.nil_append, continueSequence]
    exact congrArg (fun m => Except.ok (m, rest)) (by omega)

/-- A code point that is no surrogate is read back from its octets, whatever follows them. -/
theorem decodeFrom_octetsOf_append {c : CodePoint} (hc : c.isSurrogate = false) (position : Nat)
    (rest : Octets) : ∃ position', decodeFrom position (octetsOf c ++ rest) =
      (decodeFrom position' rest).map (c :: ·) := by
  obtain ⟨first, octets, following, low, high, bits, hoctets, hfirst, hrest⟩ := exists_sequence_octetsOf hc
  rw [hoctets, List.cons_append]
  exact ⟨_, decodeFrom_sequence hfirst (hrest rest)⟩

/-! ## Texts -/

/-- **Decoding undoes encoding.** -/
theorem decodeUtf8_flatMap_octetsOf {t : Text} (ht : t.Scalar) : decodeUtf8 (t.flatMap octetsOf) = .ok t := by
  have hfrom : ∀ position, decodeFrom position (t.flatMap octetsOf) = .ok t := by
    induction t with
    | nil =>
      intro position
      rw [List.flatMap_nil, decodeFrom]
    | cons c t ih =>
      intro position
      obtain ⟨hc, ht⟩ := scalar_cons.mp ht
      obtain ⟨position', hdecode⟩ := decodeFrom_octetsOf_append hc position (t.flatMap octetsOf)
      rw [List.flatMap_cons, hdecode, ih ht]
      rfl
  exact hfrom 0

theorem encodeUtf8_eq_ok {t : Text} {octets : Octets} (h : encodeUtf8 t = .ok octets) :
    t.Scalar ∧ octets = t.flatMap octetsOf := by
  have ht : t.Scalar := by
    by_contra hnot
    obtain ⟨fault, hfault⟩ := (encodeUtf8_fails_iff t).mpr hnot
    rw [hfault] at h
    exact nomatch h
  rw [encodeUtf8_of_scalar ht] at h
  exact ⟨ht, (Except.ok.inj h).symm⟩

/-- No two texts have the same octets. -/
theorem encodeUtf8_injective {s t : Text} {octets : Octets} (hs : encodeUtf8 s = .ok octets)
    (ht : encodeUtf8 t = .ok octets) : s = t := by
  obtain ⟨hscalar, rfl⟩ := encodeUtf8_eq_ok hs
  obtain ⟨hscalar', heq⟩ := encodeUtf8_eq_ok ht
  have hdecode := decodeUtf8_flatMap_octetsOf hscalar
  rw [heq, decodeUtf8_flatMap_octetsOf hscalar'] at hdecode
  exact (Except.ok.inj hdecode).symm

/-! ## What is decoded -/

/-- A sequence goes on with an octet in the range that is asked for; nothing narrows what follows it. -/
theorem continueSequence_succ_eq_ok {missing seen bits n : Nat} {low high : UInt8} {octets rest : Octets}
    (h : continueSequence (missing + 1) seen bits low high octets = .ok (n, rest)) :
    ∃ o octets', low.toNat ≤ o ∧ o ≤ high.toNat ∧
      continueSequence missing (seen + 1) (bits * 64 + (o - 0x80)) 0x80 0xBF octets' = .ok (n, rest) := by
  cases octets with
  | nil => exact nomatch h
  | cons o octets =>
    rw [continueSequence] at h
    split_ifs at h with hin
    · exact ⟨o.toNat, octets, UInt8.le_iff_toNat_le.mp hin.1, UInt8.le_iff_toNat_le.mp hin.2, h⟩

/-- Every octet that continues a sequence adds six bits. -/
theorem continueSequence_bounds {missing seen bits n : Nat} {octets rest : Octets}
    (h : continueSequence missing seen bits 0x80 0xBF octets = .ok (n, rest)) :
    bits * 64 ^ missing ≤ n ∧ n < (bits + 1) * 64 ^ missing := by
  induction missing generalizing seen bits octets with
  | zero =>
    cases h
    omega
  | succ missing ih =>
    obtain ⟨o, octets', hlow, hhigh, hrest⟩ := continueSequence_succ_eq_ok h
    obtain ⟨hle, hlt⟩ := ih hrest
    have hsix : o - 0x80 + 1 ≤ 64 := by
      have hlimit : o ≤ 0xBF := hhigh
      omega
    rw [Nat.pow_succ']
    constructor
    · calc bits * (64 * 64 ^ missing) = bits * 64 * 64 ^ missing := (Nat.mul_assoc _ _ _).symm
        _ ≤ (bits * 64 + (o - 0x80)) * 64 ^ missing := Nat.mul_le_mul_right _ (Nat.le_add_right _ _)
        _ ≤ n := hle
    · calc n < (bits * 64 + (o - 0x80) + 1) * 64 ^ missing := hlt
        _ ≤ (bits + 1) * 64 * 64 ^ missing := Nat.mul_le_mul_right _ (by omega)
        _ = (bits + 1) * (64 * 64 ^ missing) := Nat.mul_assoc _ _ _

/-- The range of the second octet bounds what a sequence spells. -/
theorem continueSequence_within {missing seen bits n : Nat} {low high : UInt8} {octets rest : Octets}
    (h : continueSequence (missing + 1) seen bits low high octets = .ok (n, rest)) :
    (bits * 64 + (low.toNat - 0x80)) * 64 ^ missing ≤ n ∧
      n < (bits * 64 + (high.toNat - 0x80) + 1) * 64 ^ missing := by
  obtain ⟨o, octets', hlow, hhigh, hrest⟩ := continueSequence_succ_eq_ok h
  obtain ⟨hle, hlt⟩ := continueSequence_bounds hrest
  exact ⟨(Nat.mul_le_mul_right _ (by omega)).trans hle, hlt.trans_le (Nat.mul_le_mul_right _ (by omega))⟩

/-- What an announced sequence spells is no surrogate: the first octet that could begin one narrows the second. -/
theorem not_surrogate_of_sequence {first low high : UInt8} {following bits n : Nat} {octets rest : Octets}
    (hfirst : announced? first = some (following, low, high, bits))
    (h : continueSequence following 1 bits low high octets = .ok (n, rest)) : n < 0xD800 ∨ 0xDFFF < n := by
  unfold announced? at hfirst
  dsimp only at hfirst
  split_ifs at hfirst
  all_goals cases hfirst
  · cases h
    omega
  all_goals
    have hwithin := continueSequence_within h
    simp only [UInt8.reduceToNat, Nat.reduceSub, Nat.reducePow] at hwithin
    omega

theorem scalar_of_decodeFrom {position : Nat} {octets : Octets} {t : Text}
    (h : decodeFrom position octets = .ok t) : t.Scalar := by
  fun_induction decodeFrom position octets generalizing t with
  | case1 =>
    cases h
    exact scalar_nil
  | case2 => exact nomatch h
  | case3 => exact nomatch h
  | case4 position first rest following low high bits hfirst n rest' hrest _ ih =>
    cases htail : decodeFrom (position + 1 + following) rest' with
    | error fault => exact nomatch htail ▸ h
    | ok tail =>
      rw [htail] at h
      cases h
      refine scalar_cons.mpr ⟨?_, ih htail⟩
      split_ifs with hn
      · have hbounds := not_surrogate_of_sequence hfirst hrest
        rw [CodePoint.isSurrogate, Bool.and_eq_false_iff, decide_eq_false_iff_not, decide_eq_false_iff_not]
        dsimp only
        omega
      · rfl

/-- **What is decoded has no surrogates.** -/
theorem scalar_of_decodeUtf8 {octets : Octets} {t : Text} (h : decodeUtf8 octets = .ok t) : t.Scalar :=
  scalar_of_decodeFrom h

end Text

end SolidityBuild
