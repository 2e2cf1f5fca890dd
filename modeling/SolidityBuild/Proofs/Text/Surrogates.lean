import SolidityBuild.Text.Utf8
import Mathlib.Data.List.Chain

/-!
Surrogates in texts. A text without any is what UTF-8 can encode, and no other is; a text without pairs of them is what
remains if pairs are read as one code point. Visible ASCII has no surrogates, nor has any text that is spelled by
scalar values.
-/

set_option autoImplicit false

namespace SolidityBuild

/-! ## Kinds of code points -/

namespace CodePoint

variable {c : CodePoint}

theorem isSurrogate_of_high (h : c.isHighSurrogate = true) : c.isSurrogate = true := by
  rw [isHighSurrogate, Bool.and_eq_true, decide_eq_true_eq, decide_eq_true_eq] at h
  rw [isSurrogate, Bool.and_eq_true, decide_eq_true_eq, decide_eq_true_eq]
  omega

theorem isSurrogate_of_low (h : c.isLowSurrogate = true) : c.isSurrogate = true := by
  rw [isLowSurrogate, Bool.and_eq_true, decide_eq_true_eq, decide_eq_true_eq] at h
  rw [isSurrogate, Bool.and_eq_true, decide_eq_true_eq, decide_eq_true_eq]
  omega

theorem not_high_of_scalar (h : c.isSurrogate = false) : ¬ c.isHighSurrogate = true := by
  intro hhigh
  rw [isSurrogate_of_high hhigh] at h
  exact Bool.noConfusion h

theorem not_low_of_scalar (h : c.isSurrogate = false) : c.isLowSurrogate = false := by
  by_contra hlow
  rw [Bool.not_eq_false] at hlow
  rw [isSurrogate_of_low hlow] at h
  exact Bool.noConfusion h

/-- A code point of ASCII that is no control. -/
def Visible (c : CodePoint) : Prop := 32 ≤ c.val ∧ c.val < 127

instance decidableVisible (c : CodePoint) : Decidable c.Visible :=
  inferInstanceAs (Decidable (32 ≤ c.val ∧ c.val < 127))

end CodePoint

namespace Text

variable {c : CodePoint} {s t : Text}

/-! ## Visible texts -/

/-- A text of visible code points of ASCII. -/
def Visible (t : Text) : Prop := ∀ c ∈ t, c.Visible

/-- Decided along the text, as there are too many code points to try them all. -/
instance decidableVisible (t : Text) : Decidable t.Visible := List.decidableBAll CodePoint.Visible t

theorem visible_nil : Visible [] := fun _ hc => absurd hc List.not_mem_nil

theorem visible_cons : Visible (c :: t) ↔ c.Visible ∧ Visible t := List.forall_mem_cons

theorem visible_append : Visible (s ++ t) ↔ Visible s ∧ Visible t := List.forall_mem_append

theorem Visible.return_not_mem (h : t.Visible) : 13 ∉ t := fun hc => absurd (h 13 hc) (by decide)

/-! ## Texts without surrogates -/

/-- No code point is a surrogate. -/
def Scalar (t : Text) : Prop := ∀ c ∈ t, c.isSurrogate = false

theorem Scalar.of_suffix (ht : t.Scalar) (h : s <:+ t) : s.Scalar := fun c hc => ht c (h.subset hc)

theorem scalar_nil : Scalar [] := fun _ hc => absurd hc List.not_mem_nil

theorem scalar_cons : Scalar (c :: t) ↔ c.isSurrogate = false ∧ Scalar t := List.forall_mem_cons

theorem scalar_append : Scalar (s ++ t) ↔ Scalar s ∧ Scalar t := List.forall_mem_append

theorem scalar_of_ascii (h : ∀ c ∈ t, c.val < 128) : Scalar t := by
  intro c hc
  have hlt := h c hc
  rw [CodePoint.isSurrogate, Bool.and_eq_false_iff, decide_eq_false_iff_not]
  left
  omega

theorem scalar_of_visible (h : t.Visible) : t.Scalar := scalar_of_ascii fun c hc => (h c hc).2.trans (by decide)

theorem scalar_ofString (s : String) : Scalar (ofString s) := by
  intro c hc
  obtain ⟨x, -, rfl⟩ := List.mem_map.mp hc
  have hvalid := x.valid
  rw [UInt32.isValidChar, Nat.isValidChar] at hvalid
  have hval : (CodePoint.ofChar x).val = x.val.toNat := rfl
  rw [CodePoint.isSurrogate, Bool.and_eq_false_iff, decide_eq_false_iff_not, decide_eq_false_iff_not]
  omega

/-! ## Texts without pairs of surrogates -/

/-- No high surrogate stands directly before a low one. -/
def PairFree (t : Text) : Prop :=
  t.IsChain fun c d => c.isHighSurrogate = true → d.isLowSurrogate = false

/-- A text without surrogates has no pair of them. -/
theorem Scalar.pairFree (ht : t.Scalar) : t.PairFree :=
  List.Pairwise.isChain <| List.pairwise_of_forall_mem_list fun c hc _ _ hhigh =>
    absurd hhigh (CodePoint.not_high_of_scalar (ht c hc))

/-! ## What UTF-8 encodes -/

theorem surrogateFault?_eq_none_iff (position : Nat) (t : Text) :
    surrogateFault? position t = none ↔ t.Scalar := by
  induction t generalizing position with
  | nil =>
    rw [surrogateFault?]
    exact iff_of_true rfl scalar_nil
  | cons c t ih =>
    rw [surrogateFault?, scalar_cons]
    by_cases hc : c.isSurrogate = true
    · rw [if_pos hc, hc]
      simp only [reduceCtorEq, Bool.true_eq_false, false_and]
    · rw [if_neg hc, ih, Bool.eq_false_iff.mpr hc]
      simp only [true_and]

/-- A text without surrogates has a UTF-8 form. -/
theorem encodeUtf8_of_scalar (h : t.Scalar) : encodeUtf8 t = .ok (t.flatMap octetsOf) := by
  rw [encodeUtf8, (surrogateFault?_eq_none_iff 0 t).mpr h]

/-- **A text is refused by UTF-8 exactly if it has a surrogate.** -/
theorem encodeUtf8_fails_iff (t : Text) : (∃ fault, encodeUtf8 t = .error fault) ↔ ¬ t.Scalar := by
  rw [← surrogateFault?_eq_none_iff 0 t, encodeUtf8]
  cases surrogateFault? 0 t with
  | none => simp only [reduceCtorEq, exists_false, not_true_eq_false]
  | some fault => exact iff_of_true ⟨fault, rfl⟩ (Option.some_ne_none fault)

end Text

end SolidityBuild
