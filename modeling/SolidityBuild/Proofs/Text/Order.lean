import SolidityBuild.Text.Basic
import Mathlib.Order.Defs.Unbundled

/-!
The lexicographic order of a total order is total, transitive and antisymmetric, and so is the order of
texts. Sorting rests on these three: there is one sorted order of given items, and in it texts of which none is
there twice come strictly one before the other.
-/

set_option autoImplicit false

namespace SolidityBuild

section Lexicographic

variable {α : Type} [DecidableEq α] {le : α → α → Bool}

theorem lexicographic_total (htotal : ∀ a b, le a b = true ∨ le b a = true) (s t : List α) :
    lexicographic le s t = true ∨ lexicographic le t s = true := by
  induction s generalizing t with
  | nil => exact Or.inl (by rw [lexicographic])
  | cons a s ih =>
    cases t with
    | nil => exact Or.inr (by rw [lexicographic])
    | cons b t =>
      rw [lexicographic, lexicographic]
      by_cases hab : a = b
      · rw [if_pos hab, if_pos hab.symm]
        exact ih t
      · rw [if_neg hab, if_neg (Ne.symm hab)]
        exact htotal a b

theorem lexicographic_antisymm (hanti : ∀ a b, le a b = true → le b a = true → a = b) {s t : List α}
    (hst : lexicographic le s t = true) (hts : lexicographic le t s = true) : s = t := by
  induction s generalizing t with
  | nil =>
    cases t with
    | nil => rfl
    | cons b t =>
      rw [lexicographic] at hts
      exact absurd hts Bool.false_ne_true
  | cons a s ih =>
    cases t with
    | nil =>
      rw [lexicographic] at hst
      exact absurd hst Bool.false_ne_true
    | cons b t =>
      rw [lexicographic] at hst hts
      by_cases hab : a = b
      · rw [if_pos hab] at hst
        rw [if_pos hab.symm] at hts
        rw [hab, ih hst hts]
      · rw [if_neg hab] at hst
        rw [if_neg (Ne.symm hab)] at hts
        exact absurd (hanti a b hst hts) hab

theorem lexicographic_trans (hanti : ∀ a b, le a b = true → le b a = true → a = b)
    (htrans : ∀ a b c, le a b = true → le b c = true → le a c = true) {s t u : List α}
    (hst : lexicographic le s t = true) (htu : lexicographic le t u = true) :
    lexicographic le s u = true := by
  induction s generalizing t u with
  | nil => rw [lexicographic]
  | cons a s ih =>
    cases t with
    | nil =>
      rw [lexicographic] at hst
      exact absurd hst Bool.false_ne_true
    | cons b t =>
      cases u with
      | nil =>
        rw [lexicographic] at htu
        exact absurd htu Bool.false_ne_true
      | cons c u =>
        rw [lexicographic] at hst htu ⊢
        by_cases hab : a = b
        · subst hab
          rw [if_pos rfl] at hst
          by_cases hac : a = c
          · rw [if_pos hac] at htu ⊢
            exact ih hst htu
          · rw [if_neg hac] at htu ⊢
            exact htu
        · rw [if_neg hab] at hst
          by_cases hbc : b = c
          · subst hbc
            rw [if_neg hab]
            exact hst
          · rw [if_neg hbc] at htu
            -- were the outer heads the same, the middle one would lie between them
            have hac : a ≠ c := by
              rintro rfl
              exact hab (hanti a b hst htu)
            rw [if_neg hac]
            exact htrans a b c hst htu

end Lexicographic

/-- Items that are the same where each comes before the other have one sorted order. -/
theorem mergeSort_congr {α : Type} {le : α → α → Bool}
    (htrans : ∀ a b c, le a b = true → le b c = true → le a c = true)
    (htotal : ∀ a b, (le a b || le b a) = true) {xs ys : List α}
    (hanti : ∀ a ∈ xs, ∀ b ∈ xs, le a b = true → le b a = true → a = b) (h : xs.Perm ys) :
    xs.mergeSort le = ys.mergeSort le := by
  have hsorted : ∀ zs : List α, (zs.mergeSort le).Pairwise fun a b => le a b = true :=
    List.pairwise_mergeSort htrans htotal
  refine List.Perm.eq_of_pairwise (fun a b ha hb => ?_) (hsorted xs) (hsorted ys)
    ((List.mergeSort_perm xs le).trans (h.trans (List.mergeSort_perm ys le).symm))
  exact hanti a (List.mem_mergeSort.mp ha) b (h.mem_iff.mpr (List.mem_mergeSort.mp hb))

/-- Sorted items come strictly one before the other if none of them is there twice. -/
theorem pairwise_and_ne_mergeSort {α : Type} {le : α → α → Bool}
    (htrans : ∀ a b c, le a b = true → le b c = true → le a c = true)
    (htotal : ∀ a b, (le a b || le b a) = true) {xs : List α} (h : xs.Nodup) :
    (xs.mergeSort le).Pairwise fun a b => le a b = true ∧ a ≠ b := by
  have hsorted : (xs.mergeSort le).Pairwise fun a b => le a b = true := List.pairwise_mergeSort htrans htotal xs
  have hdistinct : (xs.mergeSort le).Nodup := (List.mergeSort_perm xs le).nodup_iff.mpr h
  exact hsorted.imp₂ (fun _ _ => And.intro) hdistinct

namespace Text

theorem le_total (s t : Text) : le s t = true ∨ le t s = true := by
  refine lexicographic_total (fun c d => ?_) s t
  rw [decide_eq_true_eq, decide_eq_true_eq]
  exact Nat.le_total _ _

theorem le_antisymm {s t : Text} (hst : le s t = true) (hts : le t s = true) : s = t := by
  refine lexicographic_antisymm (fun c d hcd hdc => ?_) hst hts
  rw [decide_eq_true_eq] at hcd hdc
  exact Fin.ext (Nat.le_antisymm hcd hdc)

theorem le_trans {s t u : Text} (hst : le s t = true) (htu : le t u = true) : le s u = true := by
  refine lexicographic_trans (fun c d hcd hdc => ?_) (fun c d e hcd hde => ?_) hst htu
  · rw [decide_eq_true_eq] at hcd hdc
    exact Fin.ext (Nat.le_antisymm hcd hdc)
  · rw [decide_eq_true_eq] at hcd hde ⊢
    exact Nat.le_trans hcd hde

/-- Texts in one order or another are sorted into the same. -/
theorem mergeSort_le_congr {ts us : List Text} (h : ts.Perm us) : ts.mergeSort le = us.mergeSort le := by
  refine mergeSort_congr (fun s t u => ?_) (fun s t => ?_) (fun s _ t _ => ?_) h
  · exact le_trans
  · rw [Bool.or_eq_true]
    exact le_total s t
  · exact le_antisymm

/-- A text that comes before another one in the order of code points. -/
def Before (s t : Text) : Prop := le s t = true ∧ s ≠ t

/-- Sorted texts come one before the other if none of them is there twice. -/
theorem pairwise_before_mergeSort {ts : List Text} (h : ts.Nodup) : (ts.mergeSort le).Pairwise Before := by
  refine pairwise_and_ne_mergeSort (fun s t u => ?_) (fun s t => ?_) h
  · exact le_trans
  · rw [Bool.or_eq_true]
    exact le_total s t

end Text

end SolidityBuild
