import SolidityBuild.Proofs.Json.KeyOrder
import SolidityBuild.Proofs.Number.Rounding

/-!
The looser equality of values as equality of forms. In its form a value has the keys of its objects in order, and
every truth value, and every float that equals a whole number, is written as that number; values whose objects have
distinct keys are loosely equal exactly if they have the same form. So the looser equality is an equivalence on
such values, and it does not see the order of keys.
-/

set_option autoImplicit false

namespace SolidityBuild

/-! ## Numbers -/

/-- Magnitudes of as many units are the same. -/
theorem Magnitude.units_injective {x y : Magnitude} (h : x.units = y.units) : x = y := by
  have hx := x.round?_units Nat.one_pos
  rw [h, y.round?_units Nat.one_pos] at hx
  exact (Option.some.inj hx).symm

theorem unitsPerOne_pos : 0 < unitsPerOne := by decide +kernel

namespace Binary64

variable {x y : Binary64}

theorem toInt?_eq_some_iff {n : Int} : x.toInt? = some n ↔ x.units? = some (n * unitsPerOne) := by
  have hpos : (unitsPerOne : Int) ≠ 0 := Int.natCast_ne_zero.mpr unitsPerOne_pos.ne'
  rw [toInt?, Option.bind_eq_some_iff]
  constructor
  · rintro ⟨u, hu, hn⟩
    split at hn
    · next hwhole =>
      cases hn
      rw [hu, Int.ediv_mul_cancel (Int.dvd_of_emod_eq_zero hwhole)]
    · exact nomatch hn
  · intro hu
    refine ⟨_, hu, ?_⟩
    rw [if_pos (Int.mul_emod_left n _), Int.mul_ediv_cancel n hpos]

/-- What equals a finite value as a number has as many units, with the same sign. -/
theorem numEq_iff_units {u : Int} (h : x.units? = some u) : x.numEq y = true ↔ y.units? = some u := by
  cases x with
  | finite s a =>
    cases h
    cases y with
    | finite t b =>
      rw [numEq, units?, Bool.and_eq_true, Bool.or_eq_true, decide_eq_true_eq, decide_eq_true_eq,
        decide_eq_true_eq, Option.some.injEq]
      cases s <;> cases t <;> simp <;> omega
    | _ => exact iff_of_false (of_decide_eq_false rfl) fun h => nomatch h
  | _ => exact nomatch h

/-- What equals a value that is no whole number is that value. -/
theorem numEq_iff_of_toInt?_eq_none (h : x.toInt? = none) : x.numEq y = true ↔ x = y := by
  cases x with
  | finite s a =>
    have hunits : a.units ≠ 0 := by
      intro hzero
      have hfound : (finite s a).units? = some ((0 : Int) * unitsPerOne) := by
        rw [units?, hzero, Int.zero_mul]
        cases s <;> rfl
      exact nomatch (toInt?_eq_some_iff.mpr hfound).symm.trans h
    rw [numEq_iff_units rfl]
    constructor
    · intro hy
      cases y with
      | finite t b =>
        have hsame : a.units = b.units ∧ s = t := by
          have hsigned := Option.some.inj hy
          cases s <;> cases t <;> simp at hsigned ⊢ <;> omega
        rw [Magnitude.units_injective hsame.1, hsame.2]
      | _ => exact nomatch hy
    · rintro rfl
      rfl
  | _ => exact decide_eq_true_iff

end Binary64

namespace Json

/-- A float in its form: as the whole number that it equals, if it equals one. -/
def floatForm (x : Binary64) : Json :=
  match x.toInt? with
  | some n => .int n
  | none => .float x

theorem floatForm_eq_int_iff {x : Binary64} {n : Int} : floatForm x = .int n ↔ x.toInt? = some n := by
  unfold floatForm
  cases x.toInt? with
  | none => exact iff_of_false (fun h => nomatch h) fun h => nomatch h
  | some m => rw [Json.int.injEq, Option.some.injEq]

theorem floatForm_eq_float_iff {x y : Binary64} : floatForm x = .float y ↔ x.toInt? = none ∧ x = y := by
  unfold floatForm
  cases x.toInt? with
  | none => rw [Json.float.injEq, eq_self, true_and]
  | some m => exact iff_of_false (fun h => nomatch h) fun h => nomatch h.1

theorem int_eq_floatForm_iff {x : Binary64} {n : Int} : .int n = floatForm x ↔ x.toInt? = some n := by
  rw [eq_comm, floatForm_eq_int_iff]

/-- The form of a float is a number. -/
theorem ne_floatForm {x : Binary64} {j : Json} (hint : ∀ n, j ≠ .int n) (hfloat : ∀ y, j ≠ .float y) :
    j ≠ floatForm x := by
  unfold floatForm
  split
  · exact hint _
  · exact hfloat _

/-- **Floats are equal as numbers exactly if they have the same form.** -/
theorem numEq_iff_floatForm {x y : Binary64} : x.numEq y = true ↔ floatForm x = floatForm y := by
  cases hx : x.toInt? with
  | some n =>
    rw [floatForm_eq_int_iff.mpr hx, Binary64.numEq_iff_units (Binary64.toInt?_eq_some_iff.mp hx),
      ← Binary64.toInt?_eq_some_iff, ← floatForm_eq_int_iff, eq_comm]
  | none =>
    rw [Binary64.numEq_iff_of_toInt?_eq_none hx, floatForm_eq_float_iff.mpr ⟨hx, rfl⟩, eq_comm (b := floatForm y),
      floatForm_eq_float_iff]
    constructor
    · rintro rfl
      exact ⟨hx, rfl⟩
    · exact fun h => h.2.symm

theorem floatForm_ne {x : Binary64} {j : Json} (hint : ∀ n, j ≠ .int n) (hfloat : ∀ y, j ≠ .float y) :
    floatForm x ≠ j := (ne_floatForm hint hfloat).symm

/-! ## Forms -/

mutual

/-- The value with every truth value, and every float that equals a whole number, written as that number. -/
def wholeForm : Json → Json
  | bool b => int (if b then 1 else 0)
  | float x => floatForm x
  | list items => list (wholeFormItems items)
  | object entries => object (wholeFormEntries entries)
  | j => j

/-- `wholeForm` on every item. -/
def wholeFormItems : List Json → List Json
  | [] => []
  | x :: xs => wholeForm x :: wholeFormItems xs

/-- `wholeForm` on every value of a table. -/
def wholeFormEntries : List (Text × Json) → List (Text × Json)
  | [] => []
  | (k, x) :: xs => (k, wholeForm x) :: wholeFormEntries xs

end

/-- The form of a value: with its keys in order, and whole numbers written in one way. -/
def looseForm (j : Json) : Json := j.sortKeys.wholeForm

/-- An entry with its value in its form. -/
def formEntry (e : Text × Json) : Text × Json := (e.1, e.2.looseForm)

theorem wholeFormItems_eq (items : List Json) : wholeFormItems items = items.map wholeForm := by
  induction items with
  | nil => rw [wholeFormItems, List.map_nil]
  | cons x xs ih => rw [wholeFormItems, List.map_cons, ih]

theorem wholeFormEntries_eq (entries : Table Json) : wholeFormEntries entries = entries.mapValues wholeForm := by
  induction entries with
  | nil => rw [wholeFormEntries, Table.mapValues, List.map_nil]
  | cons e es ih =>
    rw [wholeFormEntries, ih]
    rfl

theorem looseForm_list (items : List Json) : looseForm (.list items) = .list (items.map looseForm) := by
  rw [looseForm, sortKeys_list, wholeForm, wholeFormItems_eq, List.map_map]
  rfl

/-- Bringing the values into their forms does not disturb the order of keys. -/
theorem looseForm_object (entries : Table Json) :
    looseForm (.object entries) = .object ((entries.map formEntry).mergeSort keyLe) := by
  have hsorted : ((entries.map sortEntry).mergeSort keyLe).map (fun e => (e.1, e.2.wholeForm)) =
      ((entries.map sortEntry).map fun e => (e.1, e.2.wholeForm)).mergeSort keyLe :=
    List.map_mergeSort fun _ _ _ _ => rfl
  rw [looseForm, sortKeys_object, wholeForm, wholeFormEntries_eq, Table.mapValues, hsorted, List.map_map]
  rfl

theorem keys_map_formEntry (entries : Table Json) : Table.keys (entries.map formEntry) = entries.keys := by
  rw [Table.keys, List.map_map]
  rfl

/-! ## Values with distinct keys -/

/-- Objects have distinct keys, at every depth. -/
inductive KeysDistinct : Json → Prop where
  | null : KeysDistinct .null
  | bool (b : Bool) : KeysDistinct (.bool b)
  | int (n : Int) : KeysDistinct (.int n)
  | float (x : Binary64) : KeysDistinct (.float x)
  | text (t : Text) : KeysDistinct (.text t)
  | list {items : List Json} (items_distinct : ∀ x ∈ items, KeysDistinct x) : KeysDistinct (.list items)
  | object {entries : List (Text × Json)} (distinct : (Table.keys entries).Nodup)
      (values_distinct : ∀ e ∈ entries, KeysDistinct e.2) : KeysDistinct (.object entries)

theorem WellFormed.keysDistinct {p : Text → Prop} {j : Json} (h : WellFormed p j) : KeysDistinct j := by
  induction h with
  | null => exact .null
  | bool b => exact .bool b
  | @int n _ => exact .int n
  | float x => exact .float x
  | @text t _ => exact .text t
  | list _ ih => exact .list ih
  | object distinct _ _ ih => exact .object distinct ih

theorem keysDistinct_list_iff {items : List Json} :
    KeysDistinct (.list items) ↔ ∀ x ∈ items, KeysDistinct x := by
  constructor
  · intro h
    cases h with
    | list items_distinct => exact items_distinct
  · exact .list

theorem keysDistinct_object_iff {t : Table Json} :
    KeysDistinct (.object t) ↔ t.keys.Nodup ∧ ∀ e ∈ t, KeysDistinct e.2 := by
  constructor
  · intro h
    cases h with
    | object distinct values_distinct => exact ⟨distinct, values_distinct⟩
  · exact fun h => .object h.1 h.2

/-! ## The looser equality -/

theorem looseEqItems_iff {xs ys : List Json}
    (h : ∀ x ∈ xs, ∀ y ∈ ys, looseEq x y = true ↔ looseForm x = looseForm y) :
    looseEqItems xs ys = true ↔ xs.map looseForm = ys.map looseForm := by
  induction xs generalizing ys with
  | nil =>
    cases ys with
    | nil => exact iff_of_true rfl rfl
    | cons y ys => exact iff_of_false Bool.false_ne_true fun h => nomatch h
  | cons x xs ih =>
    cases ys with
    | nil => exact iff_of_false Bool.false_ne_true fun h => nomatch h
    | cons y ys =>
      rw [looseEqItems, Bool.and_eq_true, h x List.mem_cons_self y List.mem_cons_self,
        ih fun x' hx' y' hy' => h x' (List.mem_cons_of_mem _ hx') y' (List.mem_cons_of_mem _ hy'),
        List.map_cons, List.map_cons, List.cons.injEq]

theorem looseEqEntries_iff {xs ys : Table Json} :
    looseEqEntries xs ys = true ↔ ∀ e ∈ xs, ∃ y, ys.get? e.1 = some y ∧ looseEq e.2 y = true := by
  induction xs with
  | nil => exact iff_of_true rfl fun e he => absurd he List.not_mem_nil
  | cons e es ih =>
    rw [looseEqEntries, Bool.and_eq_true, ih, List.forall_mem_cons]
    refine and_congr_left fun _ => ?_
    change _ ↔ ∃ y, List.lookup e.1 ys = some y ∧ looseEq e.2 y = true
    cases List.lookup e.1 ys with
    | none => exact iff_of_false Bool.false_ne_true fun ⟨_, h, _⟩ => nomatch h
    | some y => simp

/-- Tables are loosely equal if they have the same entries in their forms, in whatever order. -/
theorem looseEqEntries_iff_perm {xs ys : Table Json} (hxs : xs.keys.Nodup) (hys : ys.keys.Nodup)
    (h : ∀ e ∈ xs, ∀ f ∈ ys, looseEq e.2 f.2 = true ↔ looseForm e.2 = looseForm f.2) :
    xs.length = ys.length ∧ looseEqEntries xs ys = true ↔ (xs.map formEntry).Perm (ys.map formEntry) := by
  rw [looseEqEntries_iff]
  constructor
  · rintro ⟨hlength, hall⟩
    -- every entry of the first has its partner in the second, which has no more entries
    have hsub : xs.map formEntry ⊆ ys.map formEntry := by
      intro f hf
      obtain ⟨e, he, rfl⟩ := List.mem_map.mp hf
      obtain ⟨y, hfound, hequal⟩ := hall e he
      have hmem := Table.mem_of_get? hfound
      refine List.mem_map.mpr ⟨_, hmem, ?_⟩
      rw [formEntry, formEntry, (h e he _ hmem).mp hequal]
    have hnodup : (xs.map formEntry).Nodup := Table.nodup_of_nodup_keys (by rwa [keys_map_formEntry])
    refine (List.subperm_of_subset hnodup hsub).perm_of_length_le ?_
    rw [List.length_map, List.length_map, hlength]
  · intro hperm
    refine ⟨by simpa only [List.length_map] using hperm.length_eq, fun e he => ?_⟩
    obtain ⟨f, hf, hsame⟩ := List.mem_map.mp (hperm.subset (List.mem_map_of_mem he))
    obtain ⟨hkey, hvalue⟩ := Prod.mk.inj hsame
    refine ⟨f.2, ?_, (h e he f hf).mpr hvalue.symm⟩
    rw [← hkey]
    exact Table.get?_of_mem hys hf

/-- **Values are loosely equal exactly if they have the same form.** -/
theorem looseEq_iff {x y : Json} (hx : KeysDistinct x) (hy : KeysDistinct y) :
    looseEq x y = true ↔ looseForm x = looseForm y := by
  induction hx generalizing y with
  | list _ ih =>
    cases y with
    | list ys =>
      rw [looseEq, looseEqItems_iff fun x hx y hy' => ih x hx (keysDistinct_list_iff.mp hy y hy'), looseForm_list,
        looseForm_list, Json.list.injEq]
    | _ => simp [looseEq, scalarEq, scalarEq.whole?, scalarEq.floatOf?, looseForm, sortKeys, wholeForm, ne_floatForm]
  | @object xs distinct _ ih =>
    cases y with
    | object ys =>
      obtain ⟨hdistinct, hvalues⟩ := keysDistinct_object_iff.mp hy
      rw [looseEq, Bool.and_eq_true, decide_eq_true_eq,
        looseEqEntries_iff_perm distinct hdistinct fun e he f hf => ih e he (hvalues f hf), looseForm_object,
        looseForm_object, Json.object.injEq]
      constructor
      · exact mergeSort_keyLe_eq (by rwa [keys_map_formEntry])
      · intro hsorted
        exact (List.mergeSort_perm _ keyLe).symm.trans (hsorted ▸ List.mergeSort_perm _ keyLe)
    | _ => simp [looseEq, scalarEq, scalarEq.whole?, scalarEq.floatOf?, looseForm, sortKeys, wholeForm, ne_floatForm]
  | null | bool | int | float | text =>
    -- the two kinds decide; only numbers and truth values of different kinds can have the same form
    cases y <;> simp [looseEq, scalarEq, scalarEq.whole?, scalarEq.floatOf?, looseForm, sortKeys, wholeForm,
      numEq_iff_floatForm, floatForm_eq_int_iff, int_eq_floatForm_iff, ne_floatForm, floatForm_ne]

/-- One as three kinds of value, not-a-number, and keys in two orders. -/
example : looseEq (.list [.int 1, .bool true, .float .nan, .object [("a", .int 1), ("b", .null)]])
    (.list [.float (.ofDecimal false 1 0), .int 1, .float .nan, .object [("b", .null), ("a", .bool true)]]) = true := by
  decide +kernel

theorem looseEq_self {x : Json} (h : KeysDistinct x) : looseEq x x = true := (looseEq_iff h h).mpr rfl

theorem looseEq_comm {x y : Json} (hx : KeysDistinct x) (hy : KeysDistinct y) : looseEq x y = looseEq y x := by
  rw [Bool.eq_iff_iff, looseEq_iff hx hy, looseEq_iff hy hx, eq_comm]

theorem looseEq_trans {x y z : Json} (hx : KeysDistinct x) (hy : KeysDistinct y) (hz : KeysDistinct z)
    (hxy : looseEq x y = true) (hyz : looseEq y z = true) : looseEq x z = true := by
  rw [looseEq_iff hx hy] at hxy
  rw [looseEq_iff hy hz] at hyz
  exact (looseEq_iff hx hz).mpr (hxy.trans hyz)

/-- **The looser equality does not see the order of keys**, since the form does not. -/
theorem looseEq_congr {p : Text → Prop} {x x' y y' : Json} (hx : Alike p x x') (hy : Alike p y y') :
    looseEq x y = looseEq x' y' := by
  have hform : ∀ {j j' : Json}, Alike p j j' → looseForm j = looseForm j' := fun h => by
    rw [looseForm, looseForm, sortKeys_eq_of_reordered h.left h.reordered]
  rw [Bool.eq_iff_iff, looseEq_iff hx.left.keysDistinct hy.left.keysDistinct,
    looseEq_iff hx.right.keysDistinct hy.right.keysDistinct, hform hx, hform hy]

/-- A text is loosely equal to itself only. -/
theorem looseEq_text_iff {x : Json} {t : Text} : looseEq x (.text t) = true ↔ x = .text t := by
  cases x <;> simp [looseEq, scalarEq, scalarEq.whole?, scalarEq.floatOf?]

end Json

end SolidityBuild
