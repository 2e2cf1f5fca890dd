import SolidityBuild.Text.Basic
import Mathlib.Data.List.TakeDrop
import Mathlib.Data.List.TakeWhile

/-!
What a text begins with: a given text, or a run of code points that satisfy a test. A text is cut behind the longest
run in front of it, and in no other way into a run and something that goes on differently.
-/

set_option autoImplicit false

namespace SolidityBuild

namespace Text

variable {p : CodePoint → Bool} {c : CodePoint} {run t rest : Text}

theorem after?_eq_some_iff {lead : Text} : after? lead t = some rest ↔ t = lead ++ rest := by
  induction lead generalizing t with
  | nil => exact Option.some_inj
  | cons c lead ih =>
    cases t with
    | nil => exact iff_of_false (Option.some_ne_none rest).symm (List.cons_ne_nil c (lead ++ rest)).symm
    | cons d t =>
      rw [after?, List.cons_append, List.cons.injEq]
      by_cases hcd : c = d
      · rw [if_pos hcd, ih, and_iff_right hcd.symm]
      · rw [if_neg hcd]
        exact iff_of_false (Option.some_ne_none rest).symm fun h => hcd h.1.symm

/-- The text does not begin with a code point that satisfies the test, so that a run before it ends there. -/
def EndsRun (p : CodePoint → Bool) (t : Text) : Prop := ∀ c ∈ t.head?, p c = false

theorem endsRun_nil : EndsRun p [] := fun _ hc => absurd hc (Option.not_mem_none _)

theorem endsRun_cons : EndsRun p (c :: t) ↔ p c = false := by
  refine ⟨fun h => h c rfl, fun hc d hd => ?_⟩
  rw [List.head?_cons, Option.mem_some_iff] at hd
  rwa [← hd]

theorem EndsRun.append (h : EndsRun p t) (hrest : EndsRun p rest) : EndsRun p (t ++ rest) := by
  cases t with
  | nil => exact hrest
  | cons c t => exact endsRun_cons.mpr (endsRun_cons.mp h)

theorem EndsRun.append_of_ne_nil (h : EndsRun p t) (hne : t ≠ []) (rest : Text) : EndsRun p (t ++ rest) := by
  obtain ⟨c, t, rfl⟩ := List.exists_cons_of_ne_nil hne
  exact endsRun_cons.mpr (endsRun_cons.mp h)

theorem EndsRun.of_isPrefix (h : EndsRun p t) (hrun : run <+: t) : EndsRun p run := by
  cases run with
  | nil => exact endsRun_nil
  | cons c run =>
    obtain ⟨rest, rfl⟩ := hrun
    exact endsRun_cons.mpr (endsRun_cons.mp h)

theorem EndsRun.takeWhile_eq_nil (h : EndsRun p t) : t.takeWhile p = [] := by
  cases t with
  | nil => rfl
  | cons c t => exact List.takeWhile_cons_of_neg (by rw [endsRun_cons.mp h]; exact Bool.false_ne_true)

theorem EndsRun.dropWhile_eq (h : EndsRun p t) : t.dropWhile p = t := by
  cases t with
  | nil => rfl
  | cons c t => exact List.dropWhile_cons_of_neg (by rw [endsRun_cons.mp h]; exact Bool.false_ne_true)

theorem endsRun_dropWhile (p : CodePoint → Bool) (t : Text) : EndsRun p (t.dropWhile p) := by
  induction t with
  | nil => exact endsRun_nil
  | cons c t ih =>
    by_cases hc : p c = true
    · rwa [List.dropWhile_cons_of_pos hc]
    · rw [List.dropWhile_cons_of_neg hc]
      exact endsRun_cons.mpr (Bool.eq_false_iff.mpr hc)

theorem takeWhile_run_append (hrun : ∀ c ∈ run, p c = true) (h : EndsRun p rest) :
    (run ++ rest).takeWhile p = run := by
  rw [List.takeWhile_append_of_pos hrun, h.takeWhile_eq_nil, List.append_nil]

theorem dropWhile_run_append (hrun : ∀ c ∈ run, p c = true) (h : EndsRun p rest) :
    (run ++ rest).dropWhile p = rest := by
  rw [List.dropWhile_append_of_pos hrun, h.dropWhile_eq]

/-- Every text begins with a run that ends, if only with an empty one. -/
theorem exists_run (p : CodePoint → Bool) (t : Text) :
    ∃ run rest, t = run ++ rest ∧ (∀ c ∈ run, p c = true) ∧ EndsRun p rest :=
  ⟨t.takeWhile p, t.dropWhile p, List.takeWhile_append_dropWhile.symm, fun _ hc => List.mem_takeWhile_imp hc,
    endsRun_dropWhile p t⟩

/-- **A text is cut behind a run in one way.** -/
theorem span_eq_iff : t.span p = (run, rest) ↔ t = run ++ rest ∧ (∀ c ∈ run, p c = true) ∧ EndsRun p rest := by
  rw [List.span_eq_takeWhile_dropWhile]
  constructor
  · intro h
    obtain ⟨rfl, rfl⟩ := Prod.mk.inj h
    exact ⟨List.takeWhile_append_dropWhile.symm, fun _ hc => List.mem_takeWhile_imp hc, endsRun_dropWhile p t⟩
  · rintro ⟨rfl, hrun, hrest⟩
    rw [takeWhile_run_append hrun hrest, dropWhile_run_append hrun hrest]

end Text

end SolidityBuild
