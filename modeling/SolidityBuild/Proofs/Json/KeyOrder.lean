import SolidityBuild.Json.Canonical
import SolidityBuild.Proofs.Json.WellFormed
import SolidityBuild.Proofs.Table
import SolidityBuild.Proofs.Text.Order

/-!
Equality up to the order of keys, at every depth, and sorting. Two values with distinct keys have the
same sorted form exactly if they are equal up to the order of keys, so that the sorted form may stand for
the whole class; that the relation is symmetric and transitive on such values is a consequence.
-/

set_option autoImplicit false

namespace SolidityBuild

namespace Json

/-- Equality up to the order of the keys of objects. Whatever is no container is equal to itself only,
lists are related item by item, and an object to every permutation of the entries that have its keys and,
key by key, values related to its own. -/
inductive Reordered : Json → Json → Prop where
  | refl (j : Json) : Reordered j j
  | list {xs ys : List Json} (items : List.Forall₂ Reordered xs ys) : Reordered (.list xs) (.list ys)
  | object {xs ys zs : List (Text × Json)} (keys : Table.keys xs = Table.keys zs)
      (values : List.Forall₂ Reordered (Table.values xs) (Table.values zs)) (perm : zs.Perm ys) :
      Reordered (.object xs) (.object ys)

/-- Objects with related values under the same keys in the same order. -/
theorem Reordered.of_forall₂ {xs ys : List (Text × Json)}
    (h : List.Forall₂ (fun e f => e.1 = f.1 ∧ Reordered e.2 f.2) xs ys) :
    Reordered (.object xs) (.object ys) := by
  obtain ⟨hkeys, hvalues⟩ := Table.forall₂_entries_iff.mp h
  exact .object hkeys hvalues (.refl ys)

/-! ## Sorting as mapping and sorting one level -/

theorem sortKeysItems_eq (items : List Json) : sortKeysItems items = items.map sortKeys := by
  induction items with
  | nil => rw [sortKeysItems, List.map_nil]
  | cons x xs ih => rw [sortKeysItems, List.map_cons, ih]

/-- An entry with the keys of its value in order. -/
def sortEntry (e : Text × Json) : Text × Json := (e.1, e.2.sortKeys)

theorem sortKeysEntries_eq (entries : List (Text × Json)) :
    sortKeysEntries entries = entries.map sortEntry := by
  induction entries with
  | nil => rw [sortKeysEntries, List.map_nil]
  | cons e es ih =>
    rw [sortKeysEntries, List.map_cons, ih]
    rfl

theorem sortKeys_list (items : List Json) : sortKeys (.list items) = .list (items.map sortKeys) := by
  rw [sortKeys, sortKeysItems_eq]

theorem sortKeys_object (entries : List (Text × Json)) :
    sortKeys (.object entries) = .object ((entries.map sortEntry).mergeSort keyLe) := by
  rw [sortKeys, sortKeysEntries_eq]

theorem keys_map_sortEntry (entries : List (Text × Json)) :
    Table.keys (entries.map sortEntry) = Table.keys entries := by
  rw [Table.keys, List.map_map]
  rfl

/-- Entries with distinct keys have one order by key. -/
theorem mergeSort_keyLe_eq {xs ys : List (Text × Json)} (hkeys : (Table.keys xs).Nodup)
    (h : xs.Perm ys) : xs.mergeSort keyLe = ys.mergeSort keyLe := by
  have htrans : ∀ a b c : Text × Json, keyLe a b = true → keyLe b c = true → keyLe a c = true :=
    fun _ _ _ => Text.le_trans
  refine Table.mergeSort_eq_of_perm htrans ?_ ?_ hkeys h
  · intro a b
    rw [Bool.or_eq_true]
    exact Text.le_total a.1 b.1
  · intro a b hab hba
    exact Text.le_antisymm hab hba

/-- Entries with distinct keys are sorted into any order of theirs that is sorted. -/
theorem mergeSort_keyLe_of_perm {xs ys : List (Text × Json)} (hkeys : (Table.keys xs).Nodup) (h : xs.Perm ys)
    (hsorted : (Table.keys ys).Pairwise fun k l => Text.le k l = true) : xs.mergeSort keyLe = ys := by
  rw [mergeSort_keyLe_eq hkeys h]
  exact List.mergeSort_of_pairwise (List.pairwise_map.mp hsorted)

/-! ## The sorted form decides -/

theorem sortKeys_eq_of_reordered {p : Text → Prop} {j j' : Json} (hj : WellFormed p j)
    (h : Reordered j j') : j.sortKeys = j'.sortKeys := by
  induction hj generalizing j' with
  | null | bool | int | float | text =>
    cases h
    rfl
  | list _ ih =>
    cases h with
    | refl => rfl
    | list items =>
      have hmap := map_eq_map_iff_forall₂.mpr (forall₂_imp_of_mem items fun x hx y => ih x hx)
      rw [sortKeys_list, sortKeys_list, hmap]
  | @object xs distinct _ _ ih =>
    cases h with
    | refl => rfl
    | @object _ ys zs keys values perm =>
      have hmap : xs.map sortEntry = zs.map sortEntry := by
        have hentries := Table.forall₂_entries_iff.mpr ⟨keys, values⟩
        refine map_eq_map_iff_forall₂.mpr (forall₂_imp_of_mem hentries fun e he f hef => ?_)
        rw [sortEntry, sortEntry, hef.1, ih e he hef.2]
      have hdistinct : (Table.keys (xs.map sortEntry)).Nodup := by rwa [keys_map_sortEntry]
      have hperm : (xs.map sortEntry).Perm (ys.map sortEntry) := by
        rw [hmap]
        exact perm.map sortEntry
      rw [sortKeys_object, sortKeys_object, mergeSort_keyLe_eq hdistinct hperm]

theorem reordered_of_sortKeys_eq {p : Text → Prop} {j j' : Json} (hj : WellFormed p j)
    (h : j.sortKeys = j'.sortKeys) : Reordered j j' := by
  -- the sorted form has the constructor of the value, so the second value has that of the first
  induction hj generalizing j' with
  | null =>
    cases j' <;> simp only [sortKeys, reduceCtorEq] at h
    exact .refl _
  | bool | int | float | text =>
    cases j' <;> simp only [sortKeys, reduceCtorEq] at h
    rw [h]
    exact .refl _
  | list _ ih =>
    cases j' with
    | list ys =>
      rw [sortKeys_list, sortKeys_list, Json.list.injEq] at h
      exact .list (forall₂_imp_of_mem (map_eq_map_iff_forall₂.mp h) fun x hx y => ih x hx)
    | _ => simp only [sortKeys, reduceCtorEq] at h
  | @object xs _ _ _ ih =>
    cases j' with
    | object ys =>
      rw [sortKeys_object, sortKeys_object, Json.object.injEq] at h
      have hperm : (xs.map sortEntry).Perm (ys.map sortEntry) :=
        (List.mergeSort_perm _ keyLe).symm.trans (h ▸ List.mergeSort_perm _ keyLe)
      -- the sorted entries tell which entry of the second belongs to which of the first
      obtain ⟨zs, hmap, hzs⟩ := exists_perm_of_map_perm hperm
      have hentries : List.Forall₂ (fun e f => e.1 = f.1 ∧ Reordered e.2 f.2) xs zs := by
        refine forall₂_imp_of_mem (map_eq_map_iff_forall₂.mp hmap) fun e he f hef => ?_
        obtain ⟨hkey, hvalue⟩ := Prod.mk.inj hef
        exact ⟨hkey, ih e he hvalue⟩
      obtain ⟨hkeys, hvalues⟩ := Table.forall₂_entries_iff.mp hentries
      exact .object hkeys hvalues hzs
    | _ => simp only [sortKeys, reduceCtorEq] at h

/-- **Values are equal up to the order of keys exactly if their sorted forms are equal.** -/
theorem sortKeys_eq_iff {p : Text → Prop} {j j' : Json} (hj : WellFormed p j) :
    j.sortKeys = j'.sortKeys ↔ Reordered j j' :=
  ⟨reordered_of_sortKeys_eq hj, sortKeys_eq_of_reordered hj⟩

theorem Reordered.symm {p : Text → Prop} {j j' : Json} (hj : WellFormed p j) (hj' : WellFormed p j')
    (h : Reordered j j') : Reordered j' j :=
  reordered_of_sortKeys_eq hj' (sortKeys_eq_of_reordered hj h).symm

/-! ## What sorting keeps -/

theorem WellFormed.sortKeys {p : Text → Prop} {j : Json} (h : WellFormed p j) :
    WellFormed p j.sortKeys := by
  induction h with
  | null => exact .null
  | bool b => exact .bool b
  | int short => exact .int short
  | float x => exact .float x
  | text holds => exact .text holds
  | list _ ih =>
    rw [sortKeys_list]
    refine .list fun y hy => ?_
    obtain ⟨x, hx, rfl⟩ := List.mem_map.mp hy
    exact ih x hx
  | @object xs distinct keys_hold _ ih =>
    have hmem : ∀ f ∈ (xs.map sortEntry).mergeSort keyLe, ∃ e ∈ xs, sortEntry e = f := fun f hf =>
      List.mem_map.mp (List.mem_mergeSort.mp hf)
    rw [sortKeys_object]
    refine .object ?_ (fun f hf => ?_) fun f hf => ?_
    · rw [Table.keys, ((List.mergeSort_perm _ keyLe).map Prod.fst).nodup_iff]
      rw [← keys_map_sortEntry] at distinct
      exact distinct
    · obtain ⟨e, he, rfl⟩ := hmem f hf
      exact keys_hold e he
    · obtain ⟨e, he, rfl⟩ := hmem f hf
      exact ih e he

theorem mem_texts_sortKeys {p : Text → Prop} {j : Json} (h : WellFormed p j) (t : Text) :
    t ∈ texts j.sortKeys ↔ t ∈ texts j := by
  induction h with
  | null | bool | int | float | text => rfl
  | list _ ih =>
    rw [sortKeys_list, texts, texts, mem_textsOfItems, mem_textsOfItems]
    constructor
    · rintro ⟨y, hy, ht⟩
      obtain ⟨x, hx, rfl⟩ := List.mem_map.mp hy
      exact ⟨x, hx, (ih x hx).mp ht⟩
    · rintro ⟨x, hx, ht⟩
      exact ⟨sortKeys x, List.mem_map_of_mem hx, (ih x hx).mpr ht⟩
  | object _ _ _ ih =>
    rw [sortKeys_object, texts, texts, mem_textsOfEntries, mem_textsOfEntries]
    constructor
    · rintro ⟨f, hf, ht⟩
      obtain ⟨e, he, rfl⟩ := List.mem_map.mp (List.mem_mergeSort.mp hf)
      exact ⟨e, he, ht.imp id (ih e he).mp⟩
    · rintro ⟨e, he, ht⟩
      exact ⟨sortEntry e, List.mem_mergeSort.mpr (List.mem_map_of_mem he), ht.imp id (ih e he).mpr⟩

/-! ## Objects as mappings

With distinct keys, to be equal up to the order of keys is to have related values under every key. -/

theorem Reordered.rel_get? {s t : Table Json} (hs : s.keys.Nodup)
    (h : Reordered (.object s) (.object t)) (k : Text) :
    Option.Rel Reordered (s.get? k) (t.get? k) := by
  cases h with
  | refl =>
    cases s.get? k with
    | none => exact .none
    | some x => exact .some (.refl x)
  | @object _ _ zs keys values perm =>
    have hzs : (Table.keys zs).Nodup := keys ▸ hs
    rw [← Table.get?_perm hzs perm]
    exact Table.rel_get?_of_forall₂ (Table.forall₂_entries_iff.mpr ⟨keys, values⟩) k

theorem Reordered.of_rel_get? {s t : Table Json} (hs : s.keys.Nodup) (ht : t.keys.Nodup)
    (h : ∀ k, Option.Rel Reordered (s.get? k) (t.get? k)) : Reordered (.object s) (.object t) := by
  -- the entries of the first, each with the value that the second has under its key
  obtain ⟨zs, hzs⟩ : ∃ zs : Table Json, zs = s.map fun e => (e.1, (t.get? e.1).getD e.2) := ⟨_, rfl⟩
  have hentries : List.Forall₂ (fun e f => e.1 = f.1 ∧ Reordered e.2 f.2) s zs := by
    rw [hzs, List.forall₂_map_right_iff, List.forall₂_same]
    intro e he
    have hrel := h e.1
    rw [Table.get?_of_mem hs he] at hrel
    generalize t.get? e.1 = found at hrel ⊢
    cases hrel with
    | some hy => exact ⟨rfl, hy⟩
  obtain ⟨hkeys, hvalues⟩ := Table.forall₂_entries_iff.mp hentries
  refine .object hkeys hvalues (Table.perm_of_get?_eq (hkeys ▸ hs) ht fun k => ?_)
  have hrel := h k
  rw [hzs, Table.get?_map_entries fun k v => (t.get? k).getD v]
  generalize s.get? k = x at hrel ⊢
  generalize t.get? k = y at hrel ⊢
  cases hrel <;> rfl

theorem Reordered.put {s t : Table Json} (hs : s.keys.Nodup) (ht : t.keys.Nodup)
    (h : Reordered (.object s) (.object t)) (k : Text) {x y : Json} (hxy : Reordered x y) :
    Reordered (.object (s.put k x)) (.object (t.put k y)) := by
  refine .of_rel_get? (Table.nodup_keys_put hs k x) (Table.nodup_keys_put ht k y) fun k' => ?_
  rw [Table.get?_put, Table.get?_put]
  split
  · exact .some hxy
  · exact h.rel_get? hs k'

/-- What an object is related to is an object. -/
theorem Reordered.exists_object {s : Table Json} {j : Json} (h : Reordered (.object s) j) :
    ∃ t, j = .object t := by
  cases h with
  | refl => exact ⟨s, rfl⟩
  | object _ _ _ => exact ⟨_, rfl⟩

theorem Reordered.exists_list {xs : List Json} {j : Json} (h : Reordered (.list xs) j) :
    ∃ ys, j = .list ys ∧ List.Forall₂ Reordered xs ys := by
  cases h with
  | refl => exact ⟨xs, rfl, List.forall₂_same.mpr fun x _ => .refl x⟩
  | list items => exact ⟨_, rfl, items⟩

theorem Reordered.eq_text {t : Text} {j : Json} (h : Reordered (.text t) j) : j = .text t := by
  cases h
  rfl

/-! ## Well-formed values that are equal up to the order of keys

What a program does with documents is compared by this relation: it passes to the parts of values and is
kept where values are put together. On the diagonal it is well-formedness. -/

/-- Two well-formed values that are equal up to the order of keys. -/
structure Alike (p : Text → Prop) (x y : Json) : Prop where
  left : WellFormed p x
  right : WellFormed p y
  reordered : Reordered x y

namespace Alike

variable {p : Text → Prop} {x y : Json} {s t : Table Json}

theorem refl (h : WellFormed p x) : Alike p x x := ⟨h, h, .refl x⟩

theorem empty : Alike p (.object []) (.object []) := refl .empty

theorem rel_get? (h : Alike p (.object s) (.object t)) (k : Text) :
    Option.Rel (Alike p) (s.get? k) (t.get? k) := by
  have hrel := h.reordered.rel_get? h.left.nodup_keys k
  have hleft : ∀ x, s.get? k = some x → WellFormed p x := fun _ => h.left.of_get?
  have hright : ∀ y, t.get? k = some y → WellFormed p y := fun _ => h.right.of_get?
  generalize s.get? k = x at hrel hleft ⊢
  generalize t.get? k = y at hrel hright ⊢
  cases hrel with
  | none => exact .none
  | some hxy => exact .some ⟨hleft _ rfl, hright _ rfl, hxy⟩

theorem exists_get? (h : Alike p (.object s) (.object t)) {k : Text} (hx : s.get? k = some x) :
    ∃ y, t.get? k = some y ∧ Alike p x y := by
  have hrel := h.rel_get? k
  rw [hx] at hrel
  generalize t.get? k = found at hrel ⊢
  cases hrel with
  | some hxy => exact ⟨_, rfl, hxy⟩

theorem get?_eq_none (h : Alike p (.object s) (.object t)) {k : Text} (hx : s.get? k = none) :
    t.get? k = none := by
  have hrel := h.rel_get? k
  rw [hx] at hrel
  generalize t.get? k = found at hrel ⊢
  cases hrel
  rfl

/-- The texts of related objects are the same. -/
theorem get?_text (h : Alike p (.object s) (.object t)) {k a : Text} (hx : s.get? k = some (.text a)) :
    t.get? k = some (.text a) := by
  obtain ⟨y, hy, hay⟩ := h.exists_get? hx
  rw [hy, hay.reordered.eq_text]

theorem put (h : Alike p (.object s) (.object t)) {k : Text} (hk : p k) (hxy : Alike p x y) :
    Alike p (.object (s.put k x)) (.object (t.put k y)) :=
  ⟨h.left.put hk hxy.left, h.right.put hk hxy.right,
    h.reordered.put h.left.nodup_keys h.right.nodup_keys k hxy.reordered⟩

theorem exists_items {xs : List Json} (h : Alike p (.list xs) y) :
    ∃ ys, y = .list ys ∧ List.Forall₂ (Alike p) xs ys := by
  obtain ⟨hleft, hright, hxy⟩ := h
  obtain ⟨ys, rfl, hitems⟩ := hxy.exists_list
  refine ⟨ys, rfl, ?_⟩
  clear hxy
  induction hitems with
  | nil => exact .nil
  | cons hab _ ih =>
    have hleft' := List.forall_mem_cons.mp hleft.items_of_list
    have hright' := List.forall_mem_cons.mp hright.items_of_list
    exact .cons ⟨hleft'.1, hright'.1, hab⟩ (ih (.list hleft'.2) (.list hright'.2))

theorem list {xs ys : List Json} (h : List.Forall₂ (Alike p) xs ys) :
    Alike p (.list xs) (.list ys) := by
  refine ⟨.list fun x hx => ?_, .list fun y hy => ?_, .list (h.imp fun x y hxy => hxy.reordered)⟩
  · induction h with
    | nil => exact absurd hx List.not_mem_nil
    | cons hab _ ih =>
      rcases List.mem_cons.mp hx with rfl | hx
      · exact hab.left
      · exact ih hx
  · induction h with
    | nil => exact absurd hy List.not_mem_nil
    | cons hab _ ih =>
      rcases List.mem_cons.mp hy with rfl | hy
      · exact hab.right
      · exact ih hy

end Alike

end Json

end SolidityBuild
