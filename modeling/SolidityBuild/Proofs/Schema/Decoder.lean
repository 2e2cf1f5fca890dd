import SolidityBuild.Schema.Decoder
import SolidityBuild.Proofs.Table

/-!
What a decoder must have seen to give a value. Results of decoding combine without failing early, so a
value of the whole comes from a value of every part; the lemmas here take such an outcome apart, for
combinations, for fields and for tables.
-/

set_option autoImplicit false

namespace SolidityBuild

namespace Schema

variable {α β : Type}

/-! ## Combinations -/

theorem Decoded.map_eq_value {f : α → β} {x : Decoded α} {b : β} (h : (f <$> x) = .value b) :
    ∃ a, x = .value a ∧ f a = b := by
  cases x with
  | value a => exact ⟨a, rfl, Decoded.value.inj h⟩
  | faulty es => exact nomatch h

theorem Decoded.seq_eq_value {f : Decoded (α → β)} {x : Decoded α} {b : β}
    (h : (f <*> x) = .value b) : ∃ g a, f = .value g ∧ x = .value a ∧ g a = b := by
  cases f with
  | value g =>
    cases x with
    | value a => exact ⟨g, a, rfl, rfl, Decoded.value.inj h⟩
    | faulty es => exact nomatch h
  | faulty es =>
    cases x with
    | value a => exact nomatch h
    | faulty es' => exact nomatch h

theorem Decoded.inside_eq_value {step : PathStep} {x : Decoded α} {a : α}
    (h : x.inside step = .value a) : x = .value a := by
  cases x with
  | value b => exact h
  | faulty es => exact nomatch h

theorem Decoded.toExcept_eq_ok {expected : Text} {x : Decoded α} {a : α}
    (h : x.toExcept expected = .ok a) : x = .value a := by
  cases x with
  | value b => rw [Except.ok.inj h]
  | faulty es => exact nomatch h

/-! ## Fields -/

theorem Field.key?_eq_none {name : Text} {t : Table Json} (h : t.has name = false) :
    Field.key? ⟨name, none⟩ t = none := by
  rw [Field.key?, h, if_neg Bool.false_ne_true]
  rfl

theorem Field.key?_eq_some {name : Text} {t : Table Json} (h : t.has name = true) :
    Field.key? ⟨name, none⟩ t = some name := by
  rw [Field.key?, if_pos h]

/-- A field with one name is read from under that name, if the table has it. -/
theorem Field.read_eq_value {name : Text} {t : Table Json} {absent : Decoded α} {d : Decoder α} {a : α}
    (h : Field.read ⟨name, none⟩ t absent d = .value a) :
    (t.get? name = none ∧ absent = .value a) ∨ ∃ j, t.get? name = some j ∧ d j = .value a := by
  rw [Field.read] at h
  cases hget : t.get? name with
  | none =>
    rw [Field.key?_eq_none (by rw [Table.has, hget]; rfl)] at h
    exact Or.inl ⟨rfl, h⟩
  | some j =>
    rw [Field.key?_eq_some (by rw [Table.has, hget]; rfl)] at h
    dsimp only at h
    rw [hget] at h
    exact Or.inr ⟨j, rfl, Decoded.inside_eq_value h⟩

/-- A field with two names is read from under the first one that the table has. -/
theorem Field.read_or_eq_value {name other : Text} {t : Table Json} {absent : Decoded α} {d : Decoder α} {a : α}
    (h : Field.read ⟨name, some other⟩ t absent d = .value a) :
    ((t.get? name).or (t.get? other) = none ∧ absent = .value a) ∨
      ∃ j, (t.get? name).or (t.get? other) = some j ∧ d j = .value a := by
  rw [Field.read, Field.key?, Table.has] at h
  cases hname : t.get? name with
  | some j =>
    rw [hname, Option.isSome_some, if_pos rfl] at h
    dsimp only at h
    rw [hname] at h
    exact .inr ⟨j, rfl, Decoded.inside_eq_value h⟩
  | none =>
    rw [hname, Option.isSome_none, if_neg Bool.false_ne_true, Option.filter_some, Table.has] at h
    cases hother : t.get? other with
    | some j =>
      rw [hother, Option.isSome_some, if_pos rfl] at h
      dsimp only at h
      rw [hother] at h
      exact .inr ⟨j, rfl, Decoded.inside_eq_value h⟩
    | none =>
      rw [hother, Option.isSome_none, if_neg Bool.false_ne_true] at h
      exact .inl ⟨rfl, h⟩

theorem Field.required_eq_value {name : Text} {t : Table Json} {d : Decoder α} {a : α}
    (h : Field.required ⟨name, none⟩ t d = .value a) : ∃ j, t.get? name = some j ∧ d j = .value a := by
  rcases Field.read_eq_value h with ⟨-, habsent⟩ | hfound
  · exact nomatch habsent
  · exact hfound

theorem Field.withDefault_eq_value {name : Text} {t : Table Json} {default a : α} {d : Decoder α}
    (h : Field.withDefault ⟨name, none⟩ t default d = .value a) :
    (t.get? name = none ∧ default = a) ∨ ∃ j, t.get? name = some j ∧ d j = .value a := by
  rcases Field.read_eq_value h with ⟨hnone, habsent⟩ | hfound
  · exact Or.inl ⟨hnone, Decoded.value.inj habsent⟩
  · exact Or.inr hfound

/-- A field is read from a table that has its name. -/
theorem Field.read_eq_of_get? {f : Field} {t : Table Json} {j : Json} (h : t.get? f.name = some j)
    (absent : Decoded α) (d : Decoder α) : f.read t absent d = (d j).inside (.key f.name) := by
  have hhas : t.has f.name = true := by rw [Table.has, h, Option.isSome_some]
  have hkey : f.key? t = some f.name := by rw [Field.key?, if_pos hhas]
  simp only [Field.read, hkey, h]

theorem Field.read_of_get? {f : Field} {t : Table Json} {j : Json} (h : t.get? f.name = some j)
    (absent : Decoded α) {d : Decoder α} {a : α} (hj : d j = .value a) : f.read t absent d = .value a := by
  rw [Field.read_eq_of_get? h, hj]
  rfl

theorem undeclared_sublist (fields : List Field) (t : Table Json) : (undeclared fields t).Sublist t :=
  List.filter_sublist

/-- What is not declared does not stand under the first name of a field. -/
theorem not_mem_keys_undeclared {fields : List Field} {f : Field} (hf : f ∈ fields) (t : Table Json) :
    f.name ∉ (undeclared fields t).keys := by
  intro hmem
  obtain ⟨e, he, hname⟩ := List.mem_map.mp hmem
  obtain ⟨het, hdrop⟩ := List.mem_filter.mp he
  have hhas : t.has f.name = true := Table.has_iff.mpr (hname ▸ Table.mem_keys_of_mem het)
  have hkey : f.key? t = some e.1 := by rw [Field.key?, if_pos hhas, hname]
  have hin : e.1 ∈ fields.filterMap fun f => f.key? t := List.mem_filterMap.mpr ⟨f, hf, hkey⟩
  rw [List.contains_iff_mem.mpr hin] at hdrop
  exact Bool.noConfusion hdrop

/-- What stands after the declared fields is what is not declared, if each of them is there under its first name. -/
theorem undeclared_append {fields : List Field} {declared extras : Table Json}
    (hnames : declared.keys = fields.map Field.name) (hfresh : ∀ f ∈ fields, f.name ∉ extras.keys) :
    undeclared fields (declared ++ extras) = extras := by
  have hkeys : (fields.filterMap fun f => f.key? (declared ++ extras)) = declared.keys := by
    rw [hnames, ← List.filterMap_eq_map]
    refine List.filterMap_congr fun f hf => ?_
    have hmem : f.name ∈ Table.keys (declared ++ extras) := by
      have hname : f.name ∈ declared.keys := hnames ▸ List.mem_map_of_mem hf
      rw [Table.keys, List.map_append]
      exact List.mem_append_left _ hname
    rw [Field.key?, if_pos (Table.has_iff.mpr hmem)]
    rfl
  rw [undeclared, hkeys, Table.without, List.filter_append, List.filter_eq_nil_iff.mpr, List.filter_eq_self.mpr,
    List.nil_append]
  · intro e he
    have hnot : e.1 ∉ declared.keys := by
      rw [hnames, List.mem_map]
      rintro ⟨f, hf, hname⟩
      exact hfresh f hf (hname ▸ Table.mem_keys_of_mem he)
    rw [List.contains_eq_mem, decide_eq_false hnot]
    rfl
  · intro e he
    rw [List.contains_iff_mem.mpr (Table.mem_keys_of_mem he)]
    exact Bool.false_ne_true

/-! ## Values by shape -/

theorem Decoder.text_eq_value {j : Json} {t : Text} (h : Decoder.text j = .value t) : j = .text t := by
  cases j with
  | text s => rw [Decoded.value.inj h]
  | _ => exact nomatch h

theorem Decoder.nonEmptyText_eq_value {j : Json} {t : Text} (h : Decoder.nonEmptyText j = .value t) :
    j = .text t := by
  unfold Decoder.nonEmptyText at h
  split at h
  · exact nomatch h
  · rw [Decoded.value.inj h]
  · exact nomatch h

theorem Decoder.nonEmptyText_text {t : Text} (h : t ≠ []) : Decoder.nonEmptyText (.text t) = .value t := by
  cases t with
  | nil => exact absurd rfl h
  | cons c cs => rfl

theorem Decoder.ne_nil_of_nonEmptyText {j : Json} {t : Text} (h : Decoder.nonEmptyText j = .value t) : t ≠ [] := by
  rintro rfl
  obtain rfl := Decoder.nonEmptyText_eq_value h
  exact nomatch h

theorem Decoder.mapping_eq_value {j : Json} {t : Table Json} (h : Decoder.mapping j = .value t) :
    j = .object t := by
  cases j with
  | object entries => rw [Decoded.value.inj h]
  | _ => exact nomatch h

theorem Decoder.nullable_eq_value {d : Decoder α} {j : Json} {a : Option α}
    (h : Decoder.nullable d j = .value a) :
    (j = .null ∧ a = none) ∨ ∃ b, d j = .value b ∧ a = some b := by
  unfold Decoder.nullable at h
  split at h
  · exact .inl ⟨rfl, (Decoded.value.inj h).symm⟩
  · obtain ⟨b, hb, rfl⟩ := Decoded.map_eq_value h
    exact .inr ⟨b, hb, rfl⟩

theorem model_eq_value {name : Text} {read : Table Json → Decoded α} {j : Json} {a : α}
    (h : model name read j = .value a) : ∃ t, j = .object t ∧ read t = .value a := by
  cases j with
  | object entries => exact ⟨entries, rfl, h⟩
  | _ => exact nomatch h

/-- A decoded table has the keys of the object and, entry by entry, what its values decode to. -/
theorem Decoder.entriesOf_eq_value {d : Decoder α} {entries : List (Text × Json)} {t : Table α}
    (h : Decoder.entriesOf d entries = .value t) :
    List.Forall₂ (fun e f => e.1 = f.1 ∧ d e.2 = .value f.2) entries t := by
  induction entries generalizing t with
  | nil =>
    rw [← Decoded.value.inj h]
    exact .nil
  | cons e es ih =>
    obtain ⟨k, x⟩ := e
    obtain ⟨g, rest, hg, hrest, rfl⟩ := Decoded.seq_eq_value h
    obtain ⟨a, ha, rfl⟩ := Decoded.map_eq_value hg
    exact .cons ⟨rfl, Decoded.inside_eq_value ha⟩ (ih hrest)

theorem Decoder.table_eq_value {d : Decoder α} {j : Json} {t : Table α}
    (h : Decoder.table d j = .value t) : ∃ entries, j = .object entries ∧
      List.Forall₂ (fun e f => e.1 = f.1 ∧ d e.2 = .value f.2) entries t := by
  cases j with
  | object entries => exact ⟨entries, rfl, Decoder.entriesOf_eq_value h⟩
  | _ => exact nomatch h

/-- A table of decoded values is decoded from an object with the same keys, entry by entry. -/
theorem Decoder.table_of_forall₂ {d : Decoder α} {entries : List (Text × Json)} {t : Table α}
    (h : List.Forall₂ (fun e f => e.1 = f.1 ∧ d e.2 = .value f.2) entries t) :
    Decoder.table d (.object entries) = .value t := by
  change Decoder.entriesOf d entries = .value t
  induction h with
  | nil => rfl
  | @cons e f entries t hef _ ih =>
    obtain ⟨k, x⟩ := e
    obtain ⟨k', a⟩ := f
    obtain ⟨rfl, ha⟩ := hef
    simp only at ha
    rw [Decoder.entriesOf, ih, ha]
    rfl

/-- What stands under a key was decoded to what the table has under it. -/
theorem Decoder.get?_of_forall₂ {d : Decoder α} {entries : Table Json} {t : Table α}
    (h : List.Forall₂ (fun e f => e.1 = f.1 ∧ d e.2 = .value f.2) entries t) {k : Text} {x : Json}
    (hx : entries.get? k = some x) : ∃ a, t.get? k = some a ∧ d x = .value a := by
  have hrel := Table.rel_get?_of_forall₂ (R := fun x a => d x = .value a) h k
  rw [hx] at hrel
  cases ha : t.get? k with
  | none =>
    rw [ha] at hrel
    exact nomatch hrel
  | some a =>
    rw [ha, Option.rel_some_some] at hrel
    exact ⟨a, rfl, hrel⟩

/-- A table whose values are read is read with its keys. -/
theorem Decoder.table_mapValues {d : Decoder α} {f : β → Json} {g : β → α} {t : Table β}
    (h : ∀ e ∈ t, d (f e.2) = .value (g e.2)) :
    Decoder.table d (.object (t.mapValues f)) = .value (t.mapValues g) := by
  change Decoder.entriesOf d _ = _
  induction t with
  | nil => rfl
  | cons e t ih =>
    obtain ⟨k, b⟩ := e
    obtain ⟨hb, hrest⟩ := List.forall_mem_cons.mp h
    have hcons : ∀ {γ : Type} (φ : β → γ), Table.mapValues φ ((k, b) :: t) = (k, φ b) :: Table.mapValues φ t :=
      fun _ => rfl
    rw [hcons, hcons, Decoder.entriesOf, ih hrest, hb]
    rfl

/-! ## Lists -/

/-- A decoded list is, item by item, what its items decode to. -/
theorem Decoder.itemsFrom_eq_value {d : Decoder α} {place : Nat} {items : List Json} {as : List α}
    (h : Decoder.itemsFrom d place items = .value as) : List.Forall₂ (fun x a => d x = .value a) items as := by
  induction items generalizing place as with
  | nil =>
    cases h
    exact .nil
  | cons x xs ih =>
    obtain ⟨g, rest, hg, hrest, rfl⟩ := Decoded.seq_eq_value h
    obtain ⟨a, ha, rfl⟩ := Decoded.map_eq_value hg
    exact .cons (Decoded.inside_eq_value ha) (ih hrest)

theorem Decoder.list_eq_value {d : Decoder α} {j : Json} {as : List α} (h : Decoder.list d j = .value as) :
    ∃ items, j = .list items ∧ List.Forall₂ (fun x a => d x = .value a) items as := by
  cases j with
  | list items => exact ⟨items, rfl, Decoder.itemsFrom_eq_value h⟩
  | _ => exact nomatch h

/-- A list of decoded values is decoded item by item. -/
theorem Decoder.itemsFrom_of_forall₂ {d : Decoder α} {items : List Json} {as : List α}
    (h : List.Forall₂ (fun x a => d x = .value a) items as) (place : Nat) :
    Decoder.itemsFrom d place items = .value as := by
  induction h generalizing place with
  | nil => rfl
  | cons ha _ ih =>
    rw [Decoder.itemsFrom, ih, ha]
    rfl

theorem Decoder.list_of_forall₂ {d : Decoder α} {items : List Json} {as : List α}
    (h : List.Forall₂ (fun x a => d x = .value a) items as) : Decoder.list d (.list items) = .value as :=
  Decoder.itemsFrom_of_forall₂ h 0

/-- A list of texts decodes to them, and only a list of texts does. -/
theorem Decoder.itemsFrom_text (place : Nat) (ts : List Text) :
    Decoder.itemsFrom Decoder.text place (ts.map Json.text) = .value ts := by
  induction ts generalizing place with
  | nil => rfl
  | cons t ts ih =>
    rw [List.map_cons, Decoder.itemsFrom, ih]
    rfl

theorem Decoder.itemsFrom_text_eq_value {place : Nat} {items : List Json} {ts : List Text}
    (h : Decoder.itemsFrom Decoder.text place items = .value ts) : items = ts.map Json.text := by
  have hitems := Decoder.itemsFrom_eq_value h
  clear h
  induction hitems with
  | nil => rfl
  | cons hx _ ih => rw [Decoder.text_eq_value hx, ih, List.map_cons]

end Schema

end SolidityBuild
