import SolidityBuild.Proofs.Text.Runs
import SolidityBuild.Version

/-!
Which version a text names: the three numbers that stand first in it. The first two numbers end at a point, so only
the last one could be cut short; it is read as far as digits go. Nothing that stands before the three numbers or
behind them makes a difference, unless it is a digit that they go on with.
-/

set_option autoImplicit false

namespace SolidityBuild

namespace Version

open Text (EndsRun)

variable {c : CodePoint} {digits m s t before after rest : Text}

/-! ## Numbers -/

/-- The point between two numbers. -/
def point : CodePoint := '.'

theorem isDecimal_point : CodePoint.isDecimal point = false := by decide

theorem isDecimal_leadingLetter : CodePoint.isDecimal leadingLetter = false := by decide

/-- A number: at least one digit, of any script. -/
structure IsNumber (t : Text) : Prop where
  ne_nil : t ≠ []
  digits : ∀ c ∈ t, CodePoint.isDecimal c = true

/-- The text does not begin with a digit, so that a number before it ends there. -/
abbrev EndsNumber (t : Text) : Prop := EndsRun CodePoint.isDecimal t

theorem IsNumber.append (h : IsNumber digits) (hmore : ∀ c ∈ t, CodePoint.isDecimal c = true) :
    IsNumber (digits ++ t) :=
  ⟨List.append_ne_nil_of_left_ne_nil h.ne_nil t, List.forall_mem_append.mpr ⟨h.digits, hmore⟩⟩

theorem number?_eq_some_iff :
    number? t = some (digits, rest) ↔ t = digits ++ rest ∧ IsNumber digits ∧ EndsNumber rest := by
  rw [number?, digitRun]
  constructor
  · intro h
    split at h
    · exact nomatch h
    · next hne =>
      obtain ⟨rfl, hdigits, hrest⟩ := Text.span_eq_iff.mp (Option.some.inj h)
      refine ⟨rfl, ⟨?_, hdigits⟩, hrest⟩
      rintro rfl
      exact hne rest (Option.some.inj h)
  · rintro ⟨rfl, hdigits, hrest⟩
    rw [Text.span_eq_iff.mpr ⟨rfl, hdigits.digits, hrest⟩]
    split
    · next heq => exact absurd (Prod.mk.inj heq).1 hdigits.ne_nil
    · rfl

/-- A number is read with all digits that follow it. -/
theorem number?_append (h : IsNumber digits) (rest : Text) : number? (digits ++ rest) =
    some (digits ++ rest.takeWhile CodePoint.isDecimal, rest.dropWhile CodePoint.isDecimal) := by
  refine number?_eq_some_iff.mpr ⟨?_, h.append fun _ hc => List.mem_takeWhile_imp hc, Text.endsRun_dropWhile _ _⟩
  rw [List.append_assoc, List.takeWhile_append_dropWhile]

theorem pointedNumber?_eq_some_iff {pointed : Text} : pointedNumber? t = some (pointed, rest) ↔
    ∃ digits, IsNumber digits ∧ pointed = digits ++ [point] ∧ t = digits ++ point :: rest := by
  rw [pointedNumber?]
  constructor
  · intro h
    split at h
    · next digits c rest' hnumber =>
      obtain ⟨rfl, hdigits, -⟩ := number?_eq_some_iff.mp hnumber
      split_ifs at h with hc
      obtain ⟨rfl, rfl⟩ := Prod.mk.inj (Option.some.inj h)
      rw [hc]
      exact ⟨digits, hdigits, rfl, rfl⟩
    · exact nomatch h
  · rintro ⟨digits, hdigits, rfl, rfl⟩
    have hpoint : EndsNumber (point :: rest) := Text.endsRun_cons.mpr isDecimal_point
    rw [number?_eq_some_iff.mpr ⟨rfl, hdigits, hpoint⟩]
    exact if_pos rfl

/-! ## Three numbers -/

/-- Three numbers with points between them. -/
def IsTriple (t : Text) : Prop :=
  ∃ major minor patch, IsNumber major ∧ IsNumber minor ∧ IsNumber patch ∧
    t = major ++ point :: (minor ++ point :: patch)

/-- Three numbers are read with all digits that follow them. -/
theorem leading?_append (h : IsTriple m) (rest : Text) :
    leading? (m ++ rest) = some (m ++ rest.takeWhile CodePoint.isDecimal) := by
  obtain ⟨major, minor, patch, hmajor, hminor, hpatch, rfl⟩ := h
  have hfirst : pointedNumber? (major ++ point :: (minor ++ point :: (patch ++ rest))) =
      some (major ++ [point], minor ++ point :: (patch ++ rest)) :=
    pointedNumber?_eq_some_iff.mpr ⟨major, hmajor, rfl, rfl⟩
  have hsecond : pointedNumber? (minor ++ point :: (patch ++ rest)) = some (minor ++ [point], patch ++ rest) :=
    pointedNumber?_eq_some_iff.mpr ⟨minor, hminor, rfl, rfl⟩
  simp only [List.append_assoc, List.cons_append]
  simp only [leading?, hfirst, hsecond, number?_append hpatch, Option.bind_eq_bind, Option.bind_some,
    Option.pure_def, List.append_assoc, List.cons_append, List.nil_append]

theorem leading?_eq_some_iff :
    leading? t = some m ↔ IsTriple m ∧ ∃ after, t = m ++ after ∧ EndsNumber after := by
  constructor
  · intro h
    simp only [leading?, Option.bind_eq_bind, Option.bind_eq_some_iff, Option.pure_def, Option.some.injEq,
      Prod.exists] at h
    obtain ⟨_, _, hfirst, _, _, hsecond, patch, after, hthird, rfl⟩ := h
    obtain ⟨major, hmajor, rfl, rfl⟩ := pointedNumber?_eq_some_iff.mp hfirst
    obtain ⟨minor, hminor, rfl, rfl⟩ := pointedNumber?_eq_some_iff.mp hsecond
    obtain ⟨rfl, hpatch, hafter⟩ := number?_eq_some_iff.mp hthird
    exact ⟨⟨major, minor, patch, hmajor, hminor, hpatch, by simp⟩, after, by simp, hafter⟩
  · rintro ⟨hm, after, rfl, hafter⟩
    rw [leading?_append hm, hafter.takeWhile_eq_nil, List.append_nil]

theorem leading?_eq_none_iff : leading? t = none ↔ ∀ m, IsTriple m → ¬ m <+: t := by
  constructor
  · rintro h m hm ⟨rest, rfl⟩
    rw [leading?_append hm] at h
    exact nomatch h
  · intro h
    rw [Option.eq_none_iff_forall_ne_some]
    intro m hm
    obtain ⟨htriple, after, rfl, -⟩ := leading?_eq_some_iff.mp hm
    exact h m htriple (List.prefix_append m after)

namespace IsTriple

theorem ne_nil (h : IsTriple m) : m ≠ [] := by
  obtain ⟨major, minor, patch, hmajor, -, -, rfl⟩ := h
  exact List.append_ne_nil_of_left_ne_nil hmajor.ne_nil _

/-- It begins with a digit. -/
theorem head (h : IsTriple m) : ∀ c ∈ m.head?, CodePoint.isDecimal c = true := by
  obtain ⟨major, minor, patch, hmajor, -, -, rfl⟩ := h
  intro c hc
  rw [List.head?_append, Option.mem_def, Option.or_eq_some_iff] at hc
  rcases hc with hc | ⟨hnone, -⟩
  · exact hmajor.digits c (List.mem_of_mem_head? hc)
  · exact absurd (List.head?_eq_none_iff.mp hnone) hmajor.ne_nil

/-- Digits before the first number belong to it. -/
theorem digits_append (h : IsTriple m) (hdigits : ∀ c ∈ digits, CodePoint.isDecimal c = true) :
    IsTriple (digits ++ m) := by
  obtain ⟨major, minor, patch, hmajor, hminor, hpatch, rfl⟩ := h
  refine ⟨digits ++ major, minor, patch, ⟨?_, ?_⟩, hminor, hpatch, (List.append_assoc _ _ _).symm⟩
  · exact List.append_ne_nil_of_right_ne_nil digits hmajor.ne_nil
  · exact List.forall_mem_append.mpr ⟨hdigits, hmajor.digits⟩

/-- All of it but the points are digits. -/
theorem eq_point_of_mem (h : IsTriple m) (hc : c ∈ m) : CodePoint.isDecimal c = true ∨ c = point := by
  obtain ⟨major, minor, patch, hmajor, hminor, hpatch, rfl⟩ := h
  simp only [List.mem_append, List.mem_cons] at hc
  rcases hc with hc | rfl | hc | rfl | hc
  · exact .inl (hmajor.digits c hc)
  · exact .inr rfl
  · exact .inl (hminor.digits c hc)
  · exact .inr rfl
  · exact .inl (hpatch.digits c hc)

end IsTriple

theorem IsNumber.count_point (h : IsNumber digits) : digits.count point = 0 :=
  List.count_eq_zero_of_not_mem fun hmem => nomatch isDecimal_point.symm.trans (h.digits _ hmem)

/-- There are two points in it. -/
theorem IsTriple.count_point (h : IsTriple m) : m.count point = 2 := by
  obtain ⟨major, minor, patch, hmajor, hminor, hpatch, rfl⟩ := h
  simp only [List.count_append, List.count_cons_self, hmajor.count_point, hminor.count_point, hpatch.count_point]

/-- Three numbers that are within others have their points, so what stands before them is digits only and the others
begin with three numbers that end where these do. -/
theorem IsTriple.front (h : IsTriple (before ++ (m ++ rest))) (hm : IsTriple m) : IsTriple (before ++ m) := by
  refine hm.digits_append fun c hc => ?_
  have hpoints := h.count_point
  rw [List.count_append, List.count_append, hm.count_point] at hpoints
  rcases h.eq_point_of_mem (List.mem_append_left _ hc) with hdigit | rfl
  · exact hdigit
  · have := List.count_pos_iff.mpr hc
    omega

/-! ## The first three numbers -/

/-- The first three numbers of a text, with what stands before and after them: no three numbers begin further left,
and the last number goes as far as digits follow. -/
structure FirstTriple (s before m after : Text) : Prop where
  split : s = before ++ (m ++ after)
  triple : IsTriple m
  first : ∀ before' m' after', s = before' ++ (m' ++ after') → IsTriple m' → before.length ≤ before'.length
  whole : EndsNumber after

theorem FirstTriple.cons (h : FirstTriple s before m after) (hc : leading? (c :: s) = none) :
    FirstTriple (c :: s) (c :: before) m after where
  split := by rw [h.split, List.cons_append]
  triple := h.triple
  first before' m' after' hsplit hm' := by
    cases before' with
    | nil => exact absurd ⟨after', hsplit.symm⟩ (leading?_eq_none_iff.mp hc m' hm')
    | cons d before' =>
      obtain ⟨-, hsplit⟩ := List.cons.inj hsplit
      exact Nat.succ_le_succ (h.first before' m' after' hsplit hm')
  whole := h.whole

theorem FirstTriple.of_cons (h : FirstTriple (c :: s) (c :: before) m after) : FirstTriple s before m after where
  split := (List.cons.inj h.split).2
  triple := h.triple
  first before' m' after' hsplit hm' := by
    have hle := h.first (c :: before') m' after' (by rw [hsplit, List.cons_append]) hm'
    exact Nat.le_of_succ_le_succ hle
  whole := h.whole

/-- No three numbers begin at a text in which others are before them. -/
theorem FirstTriple.leading?_eq_none (h : FirstTriple s (c :: before) m after) : leading? s = none := by
  refine leading?_eq_none_iff.mpr fun m' hm' hprefix => ?_
  obtain ⟨after', hsplit⟩ := hprefix
  exact absurd (h.first [] m' after' hsplit.symm hm') (Nat.not_succ_le_zero _)

theorem scan?_eq_none_iff : scan? s = none ↔ ∀ m, IsTriple m → ¬ m <:+: s := by
  induction s with
  | nil =>
    refine iff_of_true rfl fun m hm hinfix => ?_
    exact hm.ne_nil (List.infix_nil.mp hinfix)
  | cons c s ih =>
    rw [scan?, Option.or_eq_none_iff, leading?_eq_none_iff, ih]
    simp only [List.infix_cons_iff, not_or, forall_and]

theorem scan?_eq_some_iff : scan? s = some m ↔ ∃ before after, FirstTriple s before m after := by
  constructor
  · intro h
    induction s with
    | nil => exact nomatch h
    | cons c s ih =>
      rw [scan?, Option.or_eq_some_iff] at h
      rcases h with hleading | ⟨hnone, h⟩
      · obtain ⟨hm, after, hsplit, hafter⟩ := leading?_eq_some_iff.mp hleading
        exact ⟨[], after, hsplit, hm, fun _ _ _ _ _ => Nat.zero_le _, hafter⟩
      · obtain ⟨before, after, hfirst⟩ := ih h
        exact ⟨c :: before, after, hfirst.cons hnone⟩
  · rintro ⟨before, after, h⟩
    induction before generalizing s with
    | nil =>
      have hleading := leading?_eq_some_iff.mpr ⟨h.triple, after, h.split, h.whole⟩
      cases s with
      | nil => exact nomatch hleading
      | cons c s => rw [scan?, hleading, Option.some_or]
    | cons c before ih =>
      have hnone := h.leading?_eq_none
      obtain rfl := h.split
      rw [List.cons_append, scan?, ← List.cons_append, hnone, Option.none_or]
      exact ih h.of_cons

/-! ## What stands around them -/

/-- Whatever is put behind a text, its first three numbers are those of the whole, unless the last of them goes on. -/
theorem FirstTriple.append (h : FirstTriple s before m after) (hrest : EndsNumber rest) :
    FirstTriple (s ++ rest) before m (after ++ rest) where
  split := by rw [h.split, List.append_assoc, List.append_assoc]
  triple := h.triple
  first before' m' after' hsplit hm' := by
    by_contra hless
    -- what begins further left begins in the text itself
    have hleft : before' <+: s ++ rest := ⟨m' ++ after', hsplit.symm⟩
    have hfirst : before <+: s ++ rest :=
      ⟨m ++ (after ++ rest), by rw [h.split, List.append_assoc, List.append_assoc]⟩
    obtain ⟨between, rfl⟩ := List.prefix_of_prefix_length_le hleft hfirst (Nat.le_of_not_le hless)
    rw [h.split, List.append_assoc, List.append_assoc] at hsplit
    have hsame := List.append_cancel_left hsplit
    have hfront : between ++ m <+: m' ++ after' := ⟨after ++ rest, by rw [← hsame]; simp⟩
    -- it ends there too, or it holds the first three numbers and could be cut behind them
    rcases List.prefix_or_prefix_of_prefix (List.prefix_append m' after') hfront with ⟨more, hmore⟩ | ⟨more, rfl⟩
    · refine hless (h.first before' m' (more ++ after) ?_ hm')
      rw [h.split, List.append_assoc, ← List.append_assoc m', hmore, List.append_assoc]
    · rw [List.append_assoc] at hm'
      refine hless (h.first before' (between ++ m) after ?_ (hm'.front h.triple))
      rw [h.split, List.append_assoc, List.append_assoc]
  whole := h.whole.append hrest

/-- No digit stands directly before the first three numbers. -/
theorem FirstTriple.isDecimal_getLast? (h : FirstTriple s before m after) :
    ∀ c ∈ before.getLast?, CodePoint.isDecimal c = false := by
  intro c hc
  obtain ⟨before, rfl⟩ := List.getLast?_eq_some_iff.mp hc
  by_contra hdigit
  have hlonger : IsTriple ([c] ++ m) :=
    h.triple.digits_append (List.forall_mem_singleton.mpr ((Bool.not_eq_false _).mp hdigit))
  have hle := h.first before ([c] ++ m) after (by rw [h.split]; simp) hlonger
  rw [List.length_append, List.length_singleton] at hle
  omega

/-- What is no digit makes no difference before a text. -/
theorem scan?_cons (hc : CodePoint.isDecimal c = false) (s : Text) : scan? (c :: s) = scan? s := by
  have hnone : leading? (c :: s) = none := by
    refine leading?_eq_none_iff.mpr fun m hm hprefix => ?_
    obtain ⟨d, m, rfl⟩ := List.exists_cons_of_ne_nil hm.ne_nil
    obtain ⟨rfl, -⟩ := List.cons_prefix_cons.mp hprefix
    exact nomatch hc.symm.trans (hm.head d rfl)
  rw [scan?, hnone, Option.none_or]

theorem scan?_append (h : scan? s = some m) (hrest : EndsNumber rest) : scan? (s ++ rest) = some m := by
  obtain ⟨before, after, hfirst⟩ := scan?_eq_some_iff.mp h
  exact scan?_eq_some_iff.mpr ⟨before, after ++ rest, hfirst.append hrest⟩

theorem IsTriple.scan?_eq (h : IsTriple m) : scan? m = some m :=
  scan?_eq_some_iff.mpr ⟨[], [], (List.append_nil m).symm, h, fun _ _ _ _ _ => Nat.zero_le _, Text.endsRun_nil⟩

/-- **The version that a text names is the first three numbers in it**, if there are any. They do not begin with the
leading letter, and no digit stands directly before them or behind them. The leading letter before the text makes no
difference, nor does what follows the text, unless a digit does that the last number could go on with; and three
numbers name themselves. -/
theorem scan?_finds_first (s : Text) :
    (scan? s = none ↔ ¬ ∃ m, IsTriple m ∧ m <:+: s) ∧
    (∀ m, scan? s = some m ↔ ∃ before after, FirstTriple s before m after) ∧
    (∀ m before after, FirstTriple s before m after → m.head? ≠ some leadingLetter ∧
      (∀ c ∈ before.getLast?, CodePoint.isDecimal c = false) ∧ ∀ c ∈ after.head?, CodePoint.isDecimal c = false) ∧
    scan? (leadingLetter :: s) = scan? s ∧
    ∀ m, scan? s = some m → (∀ rest, EndsNumber rest → scan? (s ++ rest) = some m) ∧ scan? m = some m := by
  refine ⟨?_, fun m => scan?_eq_some_iff, fun m before after h => ⟨fun hletter => ?_, h.isDecimal_getLast?, h.whole⟩,
    scan?_cons isDecimal_leadingLetter s, fun m h => ⟨fun rest => scan?_append h, ?_⟩⟩
  · rw [scan?_eq_none_iff]
    simp only [not_exists, not_and]
  · exact nomatch isDecimal_leadingLetter.symm.trans (h.triple.head _ hletter)
  · obtain ⟨before, after, hfirst⟩ := scan?_eq_some_iff.mp h
    exact hfirst.triple.scan?_eq

/-- Two numbers are no version, and of four numbers the first three are. -/
theorem scan?_finds_first_of_four : scan? "v1.2 3.4.55.6" = some "3.4.55" ∧
    (∃ before after, FirstTriple "v1.2 3.4.55.6" before "3.4.55" after ∧
      (∀ c ∈ before.getLast?, CodePoint.isDecimal c = false) ∧ ∀ c ∈ after.head?, CodePoint.isDecimal c = false) ∧
    EndsNumber "-beta7" ∧ scan? ("v1.2 3.4.55.6" ++ "-beta7") = some "3.4.55" ∧ scan? "3.4.55" = some "3.4.55" := by
  have hfound : scan? "v1.2 3.4.55.6" = some "3.4.55" := by decide
  have hends : EndsNumber "-beta7" := Text.endsRun_cons.mpr (by decide)
  obtain ⟨-, hfinds, hedges, -, hversion⟩ := scan?_finds_first "v1.2 3.4.55.6"
  obtain ⟨before, after, hfirst⟩ := (hfinds _).mp hfound
  obtain ⟨-, hbefore, hafter⟩ := hedges _ before after hfirst
  obtain ⟨hbehind, hself⟩ := hversion _ hfound
  exact ⟨hfound, ⟨before, after, hfirst, hbefore, hafter⟩, hends, hbehind _ hends, hself⟩

end Version

end SolidityBuild
