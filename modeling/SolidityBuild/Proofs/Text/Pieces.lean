import SolidityBuild.Files.Path
import SolidityBuild.Proofs.Text.Surrogates
import SolidityBuild.Text.Lines

/-!
Texts cut into pieces and joined again: at line ends, which are unified when a file is read, and at the separators
of paths. Names that hold no separator are what the path that they are joined to is split into.
-/

set_option autoImplicit false

namespace SolidityBuild

/-! ## Line ends -/

/-- A text without carriage returns has no line ends to unify. -/
theorem Text.unifyNewlines_of_not_mem {t : Text} (ht : 13 ∉ t) : t.unifyNewlines = t := by
  induction t with
  | nil => rfl
  | cons c t ih =>
    obtain ⟨hc, ht⟩ := List.ne_and_not_mem_of_not_mem_cons ht
    cases t with
    | nil => rw [unifyNewlines, if_neg (Ne.symm hc)]
    | cons d t => rw [unifyNewlines, if_neg (Ne.symm hc), ih ht]

/-- Unifying line ends puts nothing into a text but line feeds. -/
theorem Text.scalar_unifyNewlines {t : Text} (ht : t.Scalar) : t.unifyNewlines.Scalar := by
  have hfeed : CodePoint.isSurrogate 10 = false := rfl
  fun_induction unifyNewlines t with
  | case1 => exact ht
  | case2 => exact scalar_cons.mpr ⟨hfeed, scalar_nil⟩
  | case3 => exact ht
  | case4 rest ih => exact scalar_cons.mpr ⟨hfeed, ih (scalar_cons.mp (scalar_cons.mp ht).2).2⟩
  | case5 d rest _ ih => exact scalar_cons.mpr ⟨hfeed, ih (scalar_cons.mp ht).2⟩
  | case6 c d rest _ ih => exact scalar_cons.mpr ⟨(scalar_cons.mp ht).1, ih (scalar_cons.mp ht).2⟩

/-! ## Pieces -/

section Pieces

variable {mark : CodePoint}

theorem Text.splitOn_ne_nil (t : Text) : splitOn mark t ≠ [] := by
  cases t with
  | nil => exact List.cons_ne_nil _ _
  | cons c t =>
    rw [splitOn]
    split
    · exact List.cons_ne_nil _ _
    · split_ifs <;> exact List.cons_ne_nil _ _

theorem Text.splitOn_of_not_mem {t : Text} (h : mark ∉ t) : splitOn mark t = [t] := by
  induction t with
  | nil => rfl
  | cons c t ih =>
    obtain ⟨hc, ht⟩ := List.ne_and_not_mem_of_not_mem_cons h
    rw [splitOn, ih ht]
    exact if_neg (Ne.symm hc)

theorem Text.splitOn_append {t : Text} (h : mark ∉ t) (rest : Text) :
    splitOn mark (t ++ mark :: rest) = t :: splitOn mark rest := by
  induction t with
  | nil =>
    rw [List.nil_append, splitOn]
    cases hrest : splitOn mark rest with
    | nil => exact absurd hrest (splitOn_ne_nil rest)
    | cons first others => exact if_pos rfl
  | cons c t ih =>
    obtain ⟨hc, ht⟩ := List.ne_and_not_mem_of_not_mem_cons h
    rw [List.cons_append, splitOn, ih ht]
    exact if_neg (Ne.symm hc)

/-- **Pieces without the mark are what their join is split into.** -/
theorem Text.splitOn_join {parts : List Text} (hne : parts ≠ []) (h : ∀ part ∈ parts, mark ∉ part) :
    splitOn mark (join [mark] parts) = parts := by
  induction parts with
  | nil => exact absurd rfl hne
  | cons part parts ih =>
    obtain ⟨hpart, hparts⟩ := List.forall_mem_cons.mp h
    cases parts with
    | nil =>
      have hjoin : join [mark] [part] = part := by simp [join]
      rw [hjoin, splitOn_of_not_mem hpart]
    | cons part' parts =>
      have hjoin : join [mark] (part :: part' :: parts) = part ++ mark :: join [mark] (part' :: parts) := by
        rw [join, List.intercalate_cons_cons, List.append_assoc]
        rfl
      rw [hjoin, splitOn_append hpart, ih (List.cons_ne_nil _ _) hparts]

end Pieces

end SolidityBuild
