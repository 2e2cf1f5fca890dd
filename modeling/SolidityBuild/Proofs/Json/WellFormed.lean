import SolidityBuild.Json.Parser
import SolidityBuild.Proofs.Table

/-!
What a value read from JSON text looks like: whole numbers within the limit of digits, objects with
distinct keys, and texts and keys with whatever property the texts inside the quotes are read with. All
that is proved of values afterwards is proved by induction on this predicate, which follows the value
and has its subvalues by membership. Here too are the texts and keys of a value as one list.
-/

set_option autoImplicit false

namespace SolidityBuild

namespace Json

/-- A value whose whole numbers can be read, whose objects have distinct keys, and of whose texts and
keys a property holds. -/
inductive WellFormed (p : Text → Prop) : Json → Prop where
  | null : WellFormed p .null
  | bool (b : Bool) : WellFormed p (.bool b)
  | int {n : Int} (short : (decimalDigits n.natAbs).length ≤ digitLimit) : WellFormed p (.int n)
  | float (x : Binary64) : WellFormed p (.float x)
  | text {t : Text} (holds : p t) : WellFormed p (.text t)
  | list {items : List Json} (items_wellFormed : ∀ x ∈ items, WellFormed p x) :
      WellFormed p (.list items)
  | object {entries : List (Text × Json)} (distinct : (Table.keys entries).Nodup)
      (keys_hold : ∀ e ∈ entries, p e.1) (values_wellFormed : ∀ e ∈ entries, WellFormed p e.2) :
      WellFormed p (.object entries)

/-- An object is well-formed if its table is, with well-formed values. -/
theorem wellFormed_object_iff {p : Text → Prop} {t : Table Json} :
    WellFormed p (.object t) ↔ t.Holds p (WellFormed p) := by
  refine ⟨fun h => ?_, fun h => .object h.distinct h.keys h.values⟩
  cases h with
  | object distinct keys_hold values_wellFormed => exact ⟨distinct, keys_hold, values_wellFormed⟩

namespace WellFormed

variable {p q : Text → Prop}

theorem mono {j : Json} (hpq : ∀ t, p t → q t) (h : WellFormed p j) : WellFormed q j := by
  induction h with
  | null => exact .null
  | bool b => exact .bool b
  | int short => exact .int short
  | float x => exact .float x
  | text holds => exact .text (hpq _ holds)
  | list _ ih => exact .list ih
  | object distinct keys_hold _ ih => exact .object distinct (fun e he => hpq _ (keys_hold e he)) ih

/-! Parts of objects. -/

variable {t : Table Json}

theorem nodup_keys (h : WellFormed p (.object t)) : t.keys.Nodup := (wellFormed_object_iff.mp h).distinct

theorem key (h : WellFormed p (.object t)) {e : Text × Json} (he : e ∈ t) : p e.1 :=
  (wellFormed_object_iff.mp h).keys e he

theorem value (h : WellFormed p (.object t)) {e : Text × Json} (he : e ∈ t) : WellFormed p e.2 :=
  (wellFormed_object_iff.mp h).values e he

theorem of_get? (h : WellFormed p (.object t)) {k : Text} {v : Json} (hv : t.get? k = some v) :
    WellFormed p v :=
  (wellFormed_object_iff.mp h).get? hv

theorem items_of_list {items : List Json} (h : WellFormed p (.list items)) :
    ∀ x ∈ items, WellFormed p x := by
  cases h with
  | list items_wellFormed => exact items_wellFormed

theorem of_sublist {s : Table Json} (h : WellFormed p (.object t)) (hs : s.Sublist t) :
    WellFormed p (.object s) :=
  .object ((hs.map Prod.fst).nodup h.nodup_keys) (fun _ he => h.key (hs.subset he))
    fun _ he => h.value (hs.subset he)

theorem put (h : WellFormed p (.object t)) {k : Text} {v : Json} (hk : p k) (hv : WellFormed p v) :
    WellFormed p (.object (t.put k v)) :=
  wellFormed_object_iff.mpr ((wellFormed_object_iff.mp h).put hk hv)

theorem empty : WellFormed p (.object []) := wellFormed_object_iff.mpr .nil

/-- Entries in front of others, with keys of their own. -/
theorem cons (h : WellFormed p (.object t)) {k : Text} {v : Json} (hfresh : k ∉ t.keys) (hk : p k)
    (hv : WellFormed p v) : WellFormed p (.object ((k, v) :: t)) :=
  .object (List.nodup_cons.mpr ⟨hfresh, h.nodup_keys⟩)
    (List.forall_mem_cons.mpr ⟨hk, fun _ he => h.key he⟩)
    (List.forall_mem_cons.mpr ⟨hv, fun _ he => h.value he⟩)

theorem singleton {k : Text} {v : Json} (hk : p k) (hv : WellFormed p v) : WellFormed p (.object [(k, v)]) :=
  empty.cons List.not_mem_nil hk hv

end WellFormed

/-! ## Texts and keys -/

mutual

/-- The texts and keys of a value, at every depth. -/
def texts : Json → List Text
  | text t => [t]
  | list items => textsOfItems items
  | object entries => textsOfEntries entries
  | _ => []

/-- The texts and keys of the items of a list. -/
def textsOfItems : List Json → List Text
  | [] => []
  | x :: xs => texts x ++ textsOfItems xs

/-- The keys of a table, and the texts and keys of its values. -/
def textsOfEntries : List (Text × Json) → List Text
  | [] => []
  | (k, x) :: xs => k :: (texts x ++ textsOfEntries xs)

end

theorem mem_textsOfItems {t : Text} {items : List Json} :
    t ∈ textsOfItems items ↔ ∃ x ∈ items, t ∈ texts x := by
  induction items with
  | nil => simp [textsOfItems]
  | cons x xs ih => rw [textsOfItems, List.mem_append, ih, List.exists_mem_cons_iff]

theorem mem_textsOfEntries {t : Text} {entries : List (Text × Json)} :
    t ∈ textsOfEntries entries ↔ ∃ e ∈ entries, t = e.1 ∨ t ∈ texts e.2 := by
  induction entries with
  | nil => simp [textsOfEntries]
  | cons e es ih =>
    rw [textsOfEntries, List.mem_cons, List.mem_append, ih, List.exists_mem_cons_iff, or_assoc]

/-- A value is well-formed with every property that its texts and keys have. -/
theorem WellFormed.of_texts {p q : Text → Prop} {j : Json} (h : WellFormed p j)
    (hq : ∀ t ∈ j.texts, q t) : WellFormed q j := by
  induction h with
  | null => exact .null
  | bool b => exact .bool b
  | int short => exact .int short
  | float x => exact .float x
  | text _ => exact .text (hq _ (List.mem_singleton.mpr rfl))
  | list _ ih =>
    rw [texts] at hq
    exact .list fun x hx => ih x hx fun t ht => hq t (mem_textsOfItems.mpr ⟨x, hx, ht⟩)
  | object distinct _ _ ih =>
    rw [texts] at hq
    refine .object distinct (fun e he => ?_) fun e he => ih e he fun t ht => ?_
    · exact hq _ (mem_textsOfEntries.mpr ⟨e, he, Or.inl rfl⟩)
    · exact hq t (mem_textsOfEntries.mpr ⟨e, he, Or.inr ht⟩)

theorem WellFormed.holds_of_mem_texts {p : Text → Prop} {j : Json} (h : WellFormed p j) :
    ∀ t ∈ j.texts, p t := by
  induction h with
  | null | bool | int | float => exact fun t ht => absurd ht List.not_mem_nil
  | text holds =>
    intro t ht
    rwa [List.mem_singleton.mp ht]
  | list _ ih =>
    intro t ht
    obtain ⟨x, hx, htx⟩ := mem_textsOfItems.mp ht
    exact ih x hx t htx
  | object _ keys_hold _ ih =>
    intro t ht
    obtain ⟨e, he, rfl | hte⟩ := mem_textsOfEntries.mp ht
    · exact keys_hold e he
    · exact ih e he t hte

/-! ## Numbers that are not finite -/

theorem finiteOnlyItems_eq (items : List Json) : finiteOnlyItems items = items.map finiteOnly := by
  induction items with
  | nil => rw [finiteOnlyItems, List.map_nil]
  | cons x xs ih => rw [finiteOnlyItems, List.map_cons, ih]

theorem finiteOnlyEntries_eq (entries : Table Json) :
    finiteOnlyEntries entries = entries.mapValues finiteOnly := by
  induction entries with
  | nil => rw [finiteOnlyEntries, Table.mapValues, List.map_nil]
  | cons e es ih =>
    rw [finiteOnlyEntries, ih]
    rfl

theorem finiteOnly_object (entries : Table Json) :
    finiteOnly (.object entries) = .object (entries.mapValues finiteOnly) := by
  rw [finiteOnly, finiteOnlyEntries_eq]

/-- Replacing numbers keeps a value well-formed. -/
theorem WellFormed.finiteOnly {p : Text → Prop} {j : Json} (h : WellFormed p j) :
    WellFormed p j.finiteOnly := by
  induction h with
  | null => exact .null
  | bool b => exact .bool b
  | int short => exact .int short
  | float x =>
    rw [Json.finiteOnly]
    split
    · exact .float x
    · exact .null
  | text holds => exact .text holds
  | list _ ih =>
    rw [Json.finiteOnly, finiteOnlyItems_eq]
    refine .list fun y hy => ?_
    obtain ⟨x, hx, rfl⟩ := List.mem_map.mp hy
    exact ih x hx
  | @object entries distinct keys_hold _ ih =>
    have hentries : Table.Holds p (fun v => WellFormed p v.finiteOnly) entries :=
      ⟨distinct, keys_hold, ih⟩
    rw [finiteOnly_object]
    exact wellFormed_object_iff.mpr (hentries.mapValues fun _ hv => hv)

end Json

/-- The object of a table whose values have well-formed documents. -/
theorem Table.Holds.wellFormed {α : Type} {p : Text → Prop} {Q : α → Prop} {t : Table α} (h : t.Holds p Q)
    {f : α → Json} (hf : ∀ a, Q a → Json.WellFormed p (f a)) : Json.WellFormed p (.object (t.mapValues f)) :=
  Json.wellFormed_object_iff.mpr (h.mapValues hf)

end SolidityBuild
