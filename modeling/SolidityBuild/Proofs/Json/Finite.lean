import SolidityBuild.Proofs.Json.WellFormed

/-!
Values without numbers that are not finite: those that stay as they are when such numbers are replaced. What
is left by the replacement is one of them, and they are closed under what tables and lists are made of.
-/

set_option autoImplicit false

namespace SolidityBuild

namespace Json

/-- A value without numbers that are not finite. -/
def Finite (j : Json) : Prop := j.finiteOnly = j

mutual

/-- Replacing the numbers that are not finite leaves none of them. -/
theorem finite_finiteOnly : (j : Json) → j.finiteOnly.Finite
  | .null => rfl
  | .bool _ => rfl
  | .int _ => rfl
  | .float x => by
    rw [finiteOnly]
    split
    · next h => rw [Finite, finiteOnly, if_pos h]
    · rfl
  | .text _ => rfl
  | .list items => by rw [finiteOnly, Finite, finiteOnly, finiteOnlyItems_finiteOnlyItems items]
  | .object entries => by rw [finiteOnly, Finite, finiteOnly, finiteOnlyEntries_finiteOnlyEntries entries]

theorem finiteOnlyItems_finiteOnlyItems : (items : List Json) →
    finiteOnlyItems (finiteOnlyItems items) = finiteOnlyItems items
  | [] => rfl
  | x :: xs => by
    have hx : x.finiteOnly.finiteOnly = x.finiteOnly := finite_finiteOnly x
    rw [finiteOnlyItems, finiteOnlyItems, hx, finiteOnlyItems_finiteOnlyItems xs]

theorem finiteOnlyEntries_finiteOnlyEntries : (entries : List (Text × Json)) →
    finiteOnlyEntries (finiteOnlyEntries entries) = finiteOnlyEntries entries
  | [] => rfl
  | (k, x) :: rest => by
    have hx : x.finiteOnly.finiteOnly = x.finiteOnly := finite_finiteOnly x
    rw [finiteOnlyEntries, finiteOnlyEntries, hx, finiteOnlyEntries_finiteOnlyEntries rest]

end

/-! ## Lists and tables -/

theorem finite_list_iff {items : List Json} : Finite (.list items) ↔ ∀ x ∈ items, x.Finite := by
  have hitems := List.map_inj_left (l := items) (f := finiteOnly) (g := id)
  rw [List.map_id] at hitems
  rw [Finite, finiteOnly, finiteOnlyItems_eq, Json.list.injEq]
  exact hitems

theorem finite_object_iff {entries : Table Json} : Finite (.object entries) ↔ ∀ e ∈ entries, e.2.Finite := by
  have hentries := List.map_inj_left (l := entries) (f := fun e => (e.1, e.2.finiteOnly)) (g := id)
  rw [List.map_id] at hentries
  rw [Finite, finiteOnly_object, Json.object.injEq, Table.mapValues, hentries]
  exact forall₂_congr fun e _ => ⟨congrArg Prod.snd, fun h => Prod.ext rfl h⟩

/-- A table without such numbers stays as it is when they are replaced. -/
theorem Finite.mapValues_eq {entries : Table Json} (h : Finite (.object entries)) :
    entries.mapValues finiteOnly = entries := by
  rw [Finite, finiteOnly_object] at h
  exact Json.object.inj h

theorem Finite.of_get? {t : Table Json} (h : Finite (.object t)) {k : Text} {j : Json}
    (hj : t.get? k = some j) : j.Finite := finite_object_iff.mp h (k, j) (Table.mem_of_get? hj)

theorem Finite.put {t : Table Json} (h : Finite (.object t)) (k : Text) {j : Json} (hj : j.Finite) :
    Finite (.object (t.put k j)) := by
  refine finite_object_iff.mpr fun e he => ?_
  rcases Table.mem_put he with rfl | hmem
  · exact hj
  · exact finite_object_iff.mp h e hmem

/-- A table in which such numbers were replaced has none. -/
theorem finite_mapValues (t : Table Json) : Finite (.object (t.mapValues finiteOnly)) := by
  rw [← finiteOnly_object]
  exact finite_finiteOnly _

end Json

end SolidityBuild
