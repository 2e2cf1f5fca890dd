import SolidityBuild.Table
import SolidityBuild.Proofs.Text.Order
import Mathlib.Data.List.Forall2
import Mathlib.Data.List.Nodup
import Mathlib.Data.List.Perm.Basic

/-!
Tables as finite maps: what is found under a key after writing, that writing keeps the keys distinct,
and that a table with distinct keys is found again entry by entry, so that the order of its entries does
not matter to what is found. First, what is said of two lists item by item.
-/

set_option autoImplicit false

namespace SolidityBuild

/-! ## Lists item by item -/

section Lists

variable {α β γ : Type} {R S : α → β → Prop} {xs : List α} {ys : List β}

theorem forall₂_imp_of_mem (h : List.Forall₂ R xs ys) (himp : ∀ x ∈ xs, ∀ y, R x y → S x y) :
    List.Forall₂ S xs ys := by
  have hmem : List.Forall₂ (fun x y => x ∈ xs ∧ R x y) xs ys :=
    (List.forall₂_and_left xs ys).mpr ⟨fun _ hx => hx, h⟩
  exact hmem.imp fun x y hxy => himp x hxy.1 y hxy.2

theorem exists_mem_of_forall₂ (h : List.Forall₂ R xs ys) {y : β} (hy : y ∈ ys) : ∃ x ∈ xs, R x y := by
  induction h with
  | nil => exact absurd hy List.not_mem_nil
  | cons hxy _ ih =>
    rcases List.mem_cons.mp hy with rfl | hy
    · exact ⟨_, List.mem_cons_self, hxy⟩
    · obtain ⟨x, hx, hR⟩ := ih hy
      exact ⟨x, List.mem_cons_of_mem _ hx, hR⟩

theorem getElem?_of_forall₂ (h : List.Forall₂ R xs ys) {i : Nat} {x : α} (hx : xs[i]? = some x) :
    ∃ y, ys[i]? = some y ∧ R x y := by
  obtain ⟨hi, rfl⟩ := List.getElem?_eq_some_iff.mp hx
  have hi' : i < ys.length := h.length_eq ▸ hi
  exact ⟨ys[i], List.getElem?_eq_getElem hi', h.get hi hi'⟩

theorem map_eq_map_iff_forall₂ {f : α → γ} {g : β → γ} :
    xs.map f = ys.map g ↔ List.Forall₂ (fun x y => f x = g y) xs ys := by
  rw [← List.forall₂_eq_eq_eq, List.forall₂_map_left_iff, List.forall₂_map_right_iff]

/-- A permutation of images comes from a permutation of what they are images of. -/
theorem exists_perm_of_map_perm {f : α → β} {xs ys : List α} (h : (xs.map f).Perm (ys.map f)) :
    ∃ zs : List α, xs.map f = zs.map f ∧ zs.Perm ys := by
  -- the permutation of the images is carried back along the images of the second list
  have hback : List.Forall₂ (fun b a => b = f a) (ys.map f) ys :=
    List.forall₂_map_left_iff.mpr (List.forall₂_same.mpr fun _ _ => rfl)
  obtain ⟨zs, hzs, hperm⟩ := List.perm_comp_forall₂ h hback
  exact ⟨zs, map_eq_map_iff_forall₂.mpr (List.forall₂_map_left_iff.mp hzs), hperm⟩

/-- The order of entries with distinct keys does not matter to what is looked up. -/
theorem lookup_perm [BEq α] [LawfulBEq α] {s t : List (α × β)} (hkeys : (s.map Prod.fst).Nodup) (h : s.Perm t)
    (k : α) : s.lookup k = t.lookup k := by
  induction h with
  | nil => rfl
  | cons e _ ih =>
    rw [List.lookup_cons, List.lookup_cons, ih (List.nodup_cons.mp hkeys).2]
  | swap e e' s =>
    have hne : e'.1 ≠ e.1 := fun heq => (List.nodup_cons.mp hkeys).1 (heq ▸ List.mem_cons_self)
    rw [List.lookup_cons, List.lookup_cons, List.lookup_cons, List.lookup_cons]
    by_cases hk : k = e.1
    · rw [hk, beq_self_eq_true, beq_eq_false_iff_ne.mpr (Ne.symm hne)]
    · rw [beq_eq_false_iff_ne.mpr hk]
  | trans h _ ih ih' => exact (ih hkeys).trans (ih' ((h.map Prod.fst).nodup_iff.mp hkeys))

end Lists

namespace Table

variable {α β : Type}

/-! ## Finding -/

theorem get?_cons_self (k : Text) (v : α) (t : Table α) : get? ((k, v) :: t) k = some v :=
  List.lookup_cons_self

theorem get?_cons_of_ne {k k' : Text} (h : k' ≠ k) (v : α) (t : Table α) :
    get? ((k, v) :: t) k' = get? t k' := by
  rw [get?, List.lookup_cons, beq_eq_false_iff_ne.mpr h]
  rfl

theorem get?_eq_none_iff {t : Table α} {k : Text} : get? t k = none ↔ k ∉ keys t := by
  induction t with
  | nil =>
    constructor
    · intro _
      exact List.not_mem_nil
    · intro _
      rfl
  | cons e t ih =>
    obtain ⟨k', v⟩ := e
    rw [keys, List.map_cons, List.mem_cons, not_or]
    by_cases h : k = k'
    · subst h
      rw [get?_cons_self]
      constructor
      · intro hnone
        exact absurd hnone (Option.some_ne_none v)
      · intro hnot
        exact absurd rfl hnot.1
    · rw [get?_cons_of_ne h, ih]
      constructor
      · intro hmem
        exact ⟨h, hmem⟩
      · intro hboth
        exact hboth.2

theorem has_iff {t : Table α} {k : Text} : has t k = true ↔ k ∈ keys t := by
  unfold has
  rw [Option.isSome_iff_ne_none, ne_eq, get?_eq_none_iff, not_not]

/-- Whether a key is there is decided by the keys alone. -/
theorem has_congr {s : Table α} {t : Table β} (h : keys s = keys t) (k : Text) : has s k = has t k := by
  rw [Bool.eq_iff_iff, has_iff, has_iff, h]

theorem mem_of_get? {t : Table α} {k : Text} {v : α} (h : get? t k = some v) : (k, v) ∈ t := by
  induction t with
  | nil => exact nomatch h
  | cons e t ih =>
    obtain ⟨k', v'⟩ := e
    by_cases hk : k = k'
    · subst hk
      rw [get?_cons_self] at h
      rw [Option.some.inj h]
      exact List.mem_cons_self
    · rw [get?_cons_of_ne hk] at h
      exact List.mem_cons_of_mem _ (ih h)

theorem mem_keys_of_mem {t : Table α} {e : Text × α} (h : e ∈ t) : e.1 ∈ keys t :=
  List.mem_map_of_mem h

/-- Where the keys are distinct, every entry is found under its key. -/
theorem get?_of_mem {t : Table α} (hkeys : (keys t).Nodup) {k : Text} {v : α} (h : (k, v) ∈ t) :
    get? t k = some v := by
  induction t with
  | nil => exact absurd h List.not_mem_nil
  | cons e t ih =>
    obtain ⟨k', v'⟩ := e
    rw [keys, List.map_cons, List.nodup_cons] at hkeys
    rcases List.mem_cons.mp h with heq | hmem
    · obtain ⟨rfl, rfl⟩ := Prod.mk.inj heq
      exact get?_cons_self k v t
    · have hk : k ≠ k' := by
        rintro rfl
        have hin := mem_keys_of_mem hmem
        exact hkeys.1 hin
      rw [get?_cons_of_ne hk]
      exact ih hkeys.2 hmem

theorem get?_eq_some_iff {t : Table α} (hkeys : (keys t).Nodup) {k : Text} {v : α} :
    get? t k = some v ↔ (k, v) ∈ t :=
  ⟨mem_of_get?, get?_of_mem hkeys⟩

/-- The order of entries with distinct keys does not matter to what is found. -/
theorem get?_perm {s t : Table α} (hkeys : (keys s).Nodup) (h : s.Perm t) (k : Text) :
    get? s k = get? t k := lookup_perm hkeys h k

theorem nodup_of_nodup_keys {t : Table α} (h : (keys t).Nodup) : t.Nodup := h.of_map

/-- Tables in which the same is found under every key are permutations of each other. -/
theorem perm_of_get?_eq {s t : Table α} (hs : (keys s).Nodup) (ht : (keys t).Nodup)
    (h : ∀ k, get? s k = get? t k) : s.Perm t := by
  refine (List.perm_ext_iff_of_nodup (nodup_of_nodup_keys hs) (nodup_of_nodup_keys ht)).mpr ?_
  rintro ⟨k, v⟩
  rw [← get?_eq_some_iff hs, ← get?_eq_some_iff ht, h]

/-- **Entries with distinct keys have one sorted order.** For this the order need not tell values apart. -/
theorem mergeSort_eq_of_perm {le : Text × α → Text × α → Bool}
    (htrans : ∀ a b c, le a b = true → le b c = true → le a c = true)
    (htotal : ∀ a b, (le a b || le b a) = true)
    (hkey : ∀ a b, le a b = true → le b a = true → a.1 = b.1) {s t : Table α} (hs : (keys s).Nodup)
    (h : s.Perm t) : s.mergeSort le = t.mergeSort le := by
  refine mergeSort_congr htrans htotal (fun a ha b hb hab hba => ?_) h
  exact List.inj_on_of_nodup_map hs ha hb (hkey a b hab hba)

theorem keys_mapValues (f : α → β) (t : Table α) : keys (t.mapValues f) = keys t := by
  unfold keys mapValues
  rw [List.map_map]
  rfl

theorem mapValues_id (t : Table α) : t.mapValues id = t := List.map_id t

theorem mapValues_mapValues {γ : Type} (f : α → β) (g : β → γ) (t : Table α) :
    (t.mapValues f).mapValues g = t.mapValues fun a => g (f a) := by
  rw [mapValues, mapValues, List.map_map]
  rfl

/-- Values that are changed, perhaps by what their key is, are found changed. -/
theorem get?_map_entries (f : Text → α → β) (t : Table α) (k : Text) :
    get? (t.map fun e => (e.1, f e.1 e.2)) k = (get? t k).map (f k) := by
  induction t with
  | nil => rfl
  | cons e t ih =>
    obtain ⟨k', v⟩ := e
    rw [List.map_cons]
    by_cases h : k = k'
    · rw [h, get?_cons_self, get?_cons_self, Option.map_some]
    · rw [get?_cons_of_ne h, get?_cons_of_ne h, ih]

theorem get?_mapValues (f : α → β) (t : Table α) (k : Text) :
    get? (t.mapValues f) k = (get? t k).map f := get?_map_entries (fun _ => f) t k

theorem mem_keys_without {k : Text} {drop : List Text} {t : Table α} :
    k ∈ keys (t.without drop) ↔ k ∈ keys t ∧ k ∉ drop := by
  rw [keys, keys, List.mem_map, List.mem_map]
  constructor
  · rintro ⟨e, he, rfl⟩
    obtain ⟨het, hkept⟩ := List.mem_filter.mp he
    refine ⟨⟨e, het, rfl⟩, fun hmem => ?_⟩
    rw [List.contains_eq_mem, decide_eq_true hmem] at hkept
    exact Bool.noConfusion hkept
  · rintro ⟨⟨e, he, rfl⟩, hnot⟩
    refine ⟨e, List.mem_filter.mpr ⟨he, ?_⟩, rfl⟩
    rw [List.contains_eq_mem, decide_eq_false hnot]
    rfl

theorem get?_without {k : Text} {drop : List Text} (h : k ∉ drop) (t : Table α) :
    get? (t.without drop) k = get? t k := by
  induction t with
  | nil => rfl
  | cons e t ih =>
    obtain ⟨k', v⟩ := e
    rw [without] at ih ⊢
    rw [List.filter_cons]
    by_cases hk : k = k'
    · subst hk
      have hkept : (!drop.contains k) = true := by rw [List.contains_eq_mem, decide_eq_false h, Bool.not_false]
      rw [if_pos hkept, get?_cons_self, get?_cons_self]
    · rw [get?_cons_of_ne hk]
      split
      · rw [get?_cons_of_ne hk, ih]
      · exact ih

/-! ## Entries one by one -/

/-- Entries are related one by one if their keys agree and their values are related. -/
theorem forall₂_entries_iff {R : α → β → Prop} {s : Table α} {t : Table β} :
    List.Forall₂ (fun e f => e.1 = f.1 ∧ R e.2 f.2) s t ↔
      keys s = keys t ∧ List.Forall₂ R (values s) (values t) := by
  unfold keys values
  rw [map_eq_map_iff_forall₂, List.forall₂_map_left_iff, List.forall₂_map_right_iff]
  constructor
  · intro h
    exact ⟨h.imp fun _ _ hef => hef.1, h.imp fun _ _ hef => hef.2⟩
  · rintro ⟨hkeys, hvalues⟩
    exact hkeys.mp (fun _ _ => And.intro) hvalues

/-- What is found under a key in tables whose entries are related one by one is related. -/
theorem rel_get?_of_forall₂ {R : α → β → Prop} {s : Table α} {t : Table β}
    (h : List.Forall₂ (fun e f => e.1 = f.1 ∧ R e.2 f.2) s t) (k : Text) :
    Option.Rel R (s.get? k) (t.get? k) := by
  induction h with
  | nil => exact .none
  | @cons e f es fs hef _ ih =>
    obtain ⟨l, x⟩ := e
    obtain ⟨l', y⟩ := f
    obtain ⟨hl, hR⟩ := hef
    dsimp only at hl hR
    subst hl
    by_cases hk : k = l
    · subst hk
      rw [get?_cons_self, get?_cons_self]
      exact .some hR
    · rw [get?_cons_of_ne hk, get?_cons_of_ne hk]
      exact ih

/-! ## Writing -/

theorem put_of_not_mem {t : Table α} {k : Text} (h : k ∉ keys t) (v : α) : t.put k v = t ++ [(k, v)] := by
  induction t with
  | nil => rfl
  | cons e t ih =>
    obtain ⟨k', v'⟩ := e
    rw [keys, List.map_cons, List.mem_cons, not_or] at h
    rw [put, if_neg (fun heq => h.1 heq.symm), ih h.2, List.cons_append]

theorem get?_put_self (t : Table α) (k : Text) (v : α) : get? (t.put k v) k = some v := by
  induction t with
  | nil => exact get?_cons_self k v []
  | cons e t ih =>
    obtain ⟨k', v'⟩ := e
    by_cases h : k' = k
    · subst h
      rw [put, if_pos rfl, get?_cons_self]
    · rw [put, if_neg h, get?_cons_of_ne (Ne.symm h), ih]

theorem get?_put_of_ne {k k' : Text} (h : k' ≠ k) (t : Table α) (v : α) :
    get? (t.put k v) k' = get? t k' := by
  induction t with
  | nil => exact get?_cons_of_ne h v []
  | cons e t ih =>
    obtain ⟨l, w⟩ := e
    by_cases hl : l = k
    · subst hl
      rw [put, if_pos rfl, get?_cons_of_ne h, get?_cons_of_ne h]
    · rw [put, if_neg hl]
      by_cases hk' : k' = l
      · subst hk'
        rw [get?_cons_self, get?_cons_self]
      · rw [get?_cons_of_ne hk', get?_cons_of_ne hk', ih]

/-- Writing changes what is found under one key. -/
theorem get?_put (t : Table α) (k k' : Text) (v : α) :
    get? (t.put k v) k' = if k' = k then some v else get? t k' := by
  by_cases h : k' = k
  · rw [if_pos h, h, get?_put_self]
  · rw [if_neg h, get?_put_of_ne h]

theorem keys_put_of_mem {t : Table α} {k : Text} (h : k ∈ keys t) (v : α) : keys (t.put k v) = keys t := by
  induction t with
  | nil => exact absurd h List.not_mem_nil
  | cons e t ih =>
    obtain ⟨k', v'⟩ := e
    have hcons : ∀ (u : Table α) (w : α), keys ((k', w) :: u) = k' :: keys u := fun _ _ => rfl
    by_cases hk : k' = k
    · subst hk
      rw [put, if_pos rfl, hcons, hcons]
    · have hmem : k ∈ keys t := (List.mem_cons.mp h).resolve_left (Ne.symm hk)
      rw [put, if_neg hk, hcons, ih hmem, hcons]

theorem nodup_keys_put {t : Table α} (h : (keys t).Nodup) (k : Text) (v : α) :
    (keys (t.put k v)).Nodup := by
  by_cases hk : k ∈ keys t
  · rw [keys_put_of_mem hk]
    exact h
  · have hkeys : keys (t ++ [(k, v)]) = keys t ++ [k] := List.map_append
    rw [put_of_not_mem hk, hkeys]
    exact List.nodup_append_comm.mp (List.nodup_cons.mpr ⟨hk, h⟩)

theorem mem_put {t : Table α} {k : Text} {v : α} {e : Text × α} (h : e ∈ t.put k v) :
    e = (k, v) ∨ e ∈ t := by
  induction t with
  | nil => exact Or.inl (List.mem_singleton.mp h)
  | cons e' t ih =>
    obtain ⟨k', v'⟩ := e'
    rw [put] at h
    split at h
    · next hk =>
      rcases List.mem_cons.mp h with rfl | hmem
      · left
        rw [hk]
      · exact Or.inr (List.mem_cons_of_mem _ hmem)
    · rcases List.mem_cons.mp h with rfl | hmem
      · exact Or.inr List.mem_cons_self
      · exact (ih hmem).imp id (List.mem_cons_of_mem _)

/-- Writing what is there changes nothing. -/
theorem put_of_get? {t : Table α} {k : Text} {v : α} (h : get? t k = some v) : t.put k v = t := by
  induction t with
  | nil => exact nomatch h
  | cons e t ih =>
    obtain ⟨k', v'⟩ := e
    by_cases hk : k' = k
    · subst hk
      rw [get?_cons_self] at h
      rw [put, if_pos rfl, Option.some.inj h]
    · rw [get?_cons_of_ne (Ne.symm hk)] at h
      rw [put, if_neg hk, ih h]

/-! ## Tables changed under some keys -/

/-- A table that differs from another one under the given keys at most: every key keeps its place, and those of the
given ones that the other table does not have come after its keys, in the given order. -/
structure ChangedAt (s t : Table α) (changed : List Text) : Prop where
  keys_eq : t.keys = s.keys ++ changed.filter fun k => !s.has k
  get?_eq : ∀ k, k ∉ changed → t.get? k = s.get? k

theorem ChangedAt.refl (t : Table α) : t.ChangedAt t [] := ⟨(List.append_nil _).symm, fun _ _ => rfl⟩

theorem changedAt_put (t : Table α) (k : Text) (v : α) : t.ChangedAt (t.put k v) [k] where
  keys_eq := by
    by_cases hk : k ∈ t.keys
    · rw [keys_put_of_mem hk, List.filter_singleton, has_iff.mpr hk]
      exact (List.append_nil _).symm
    · rw [put_of_not_mem hk, List.filter_singleton, Bool.eq_false_iff.mpr fun h => hk (has_iff.mp h)]
      exact List.map_append
  get?_eq k' hk' := get?_put_of_ne (fun h => hk' (List.mem_singleton.mpr h)) t v

/-- Changes under keys that do not meet add up. -/
theorem ChangedAt.trans {r s t : Table α} {changed changed' : List Text} (h : r.ChangedAt s changed)
    (h' : s.ChangedAt t changed') (hapart : ∀ k ∈ changed', k ∉ changed) :
    r.ChangedAt t (changed ++ changed') where
  keys_eq := by
    have hnew : changed'.filter (fun k => !s.has k) = changed'.filter fun k => !r.has k :=
      List.filter_congr fun k hk => by rw [has, has, h.get?_eq k (hapart k hk)]
    rw [h'.keys_eq, h.keys_eq, hnew, List.filter_append, List.append_assoc]
  get?_eq k hk := by
    rw [List.mem_append, not_or] at hk
    rw [h'.get?_eq k hk.2, h.get?_eq k hk.1]

/-! ## Tables from entries -/

/-- Entries are taken over as they are if their keys are new and distinct. -/
theorem foldl_put_of_nodup {t : Table α} {entries : List (Text × α)}
    (h : (keys (t ++ entries)).Nodup) :
    entries.foldl (fun t e => put t e.1 e.2) t = t ++ entries := by
  induction entries generalizing t with
  | nil => rw [List.foldl_nil, List.append_nil]
  | cons e es ih =>
    have hsplit : t ++ e :: es = t ++ [(e.1, e.2)] ++ es := by simp
    rw [hsplit] at h ⊢
    -- a key that is new is written at the end
    have he : e.1 ∉ keys t := by
      intro hmem
      rw [keys, List.map_append, List.map_append] at h
      have hdisjoint := (List.nodup_append.mp (List.nodup_append.mp h).1).2.2
      exact hdisjoint e.1 hmem e.1 List.mem_cons_self rfl
    rw [List.foldl_cons, put_of_not_mem he, ih h]

theorem ofEntries_of_nodup {entries : List (Text × α)} (h : (keys entries).Nodup) :
    ofEntries entries = entries := by
  unfold ofEntries
  rw [foldl_put_of_nodup (by rwa [List.nil_append]), List.nil_append]

theorem nodup_keys_ofEntries (entries : List (Text × α)) : (keys (ofEntries entries)).Nodup := by
  have hfold : ∀ t : Table α, (keys t).Nodup →
      (keys (entries.foldl (fun t e => put t e.1 e.2) t)).Nodup := by
    induction entries with
    | nil =>
      intro t ht
      exact ht
    | cons e es ih =>
      intro t ht
      exact ih _ (nodup_keys_put ht e.1 e.2)
  exact hfold [] List.nodup_nil

theorem mem_foldl_put {entries : List (Text × α)} {t : Table α} {e : Text × α}
    (h : e ∈ entries.foldl (fun t e => put t e.1 e.2) t) : e ∈ t ∨ e ∈ entries := by
  induction entries generalizing t with
  | nil => exact Or.inl h
  | cons e' es ih =>
    rcases ih h with hmem | hmem
    · rcases mem_put hmem with rfl | hmem
      · exact Or.inr List.mem_cons_self
      · exact Or.inl hmem
    · exact Or.inr (List.mem_cons_of_mem _ hmem)

theorem mem_ofEntries {entries : List (Text × α)} {e : Text × α} (h : e ∈ ofEntries entries) :
    e ∈ entries :=
  (mem_foldl_put h).resolve_left List.not_mem_nil

/-! ## Tables of which properties hold -/

/-- A table with distinct keys, of whose keys and values properties hold. -/
structure Holds (p : Text → Prop) (Q : α → Prop) (t : Table α) : Prop where
  distinct : t.keys.Nodup
  keys : ∀ e ∈ t, p e.1
  values : ∀ e ∈ t, Q e.2

namespace Holds

variable {p : Text → Prop} {Q : α → Prop} {R : β → Prop} {t : Table α} {k : Text} {a : α}

theorem nil : Holds p Q [] := ⟨List.nodup_nil, List.forall_mem_nil _, List.forall_mem_nil _⟩

theorem get? (h : Holds p Q t) (ha : t.get? k = some a) : Q a := h.values _ (mem_of_get? ha)

theorem put (h : Holds p Q t) (hk : p k) (ha : Q a) : Holds p Q (t.put k a) := by
  refine ⟨nodup_keys_put h.distinct k a, fun e he => ?_, fun e he => ?_⟩
  · rcases mem_put he with rfl | he
    · exact hk
    · exact h.keys e he
  · rcases mem_put he with rfl | he
    · exact ha
    · exact h.values e he

theorem mapValues (h : Holds p Q t) {f : α → β} (hf : ∀ a, Q a → R (f a)) : Holds p R (t.mapValues f) := by
  refine ⟨?_, fun e he => ?_, fun e he => ?_⟩
  · rw [keys_mapValues]
    exact h.distinct
  · obtain ⟨e', he', rfl⟩ := List.mem_map.mp he
    exact h.keys e' he'
  · obtain ⟨e', he', rfl⟩ := List.mem_map.mp he
    exact hf _ (h.values e' he')

/-- A table whose values are decoded from those of another one, key by key. -/
theorem of_forall₂ {s : Table β} (h : Holds p R s) {S : β → α → Prop} (hS : ∀ b a, R b → S b a → Q a)
    (hst : List.Forall₂ (fun e f => e.1 = f.1 ∧ S e.2 f.2) s t) : Holds p Q t := by
  refine ⟨?_, fun f hf => ?_, fun f hf => ?_⟩
  · obtain ⟨hkeys, -⟩ := forall₂_entries_iff.mp hst
    rw [← hkeys]
    exact h.distinct
  · obtain ⟨e, he, hkey, -⟩ := exists_mem_of_forall₂ hst hf
    rw [← hkey]
    exact h.keys e he
  · obtain ⟨e, he, -, hvalue⟩ := exists_mem_of_forall₂ hst hf
    exact hS _ _ (h.values e he) hvalue

end Holds

end Table

end SolidityBuild
