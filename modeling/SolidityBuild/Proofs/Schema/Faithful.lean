import SolidityBuild.Proofs.Json.Finite
import SolidityBuild.Proofs.Schema.Acceptance
import SolidityBuild.Schema.Scalar

/-!
Decoders and writers that belong together. What was decoded is written as a document that is decoded to the same,
whatever liberties the first document took: a second name for a field, a field left out, a number spelled as a text.
Writing also replaces numbers that are not finite, and here the two sides have to agree on what the replacement makes
of a decoded value. Both facts are stated of any decoder and its writer at once, and carried from the parts of a
document to the whole: through null, lists, tables, fields, and models that keep undeclared entries.
-/

set_option autoImplicit false

namespace SolidityBuild

open Json

namespace Schema

variable {α β γ : Type}

/-- A decoder and a writer that belong together. `replaced` is what becomes of a decoded value when the numbers that
are not finite are replaced in its document. -/
structure Faithful (d : Decoder α) (write : α → Json) (replaced : α → α) : Prop where
  /-- What was decoded is decoded again from what is written of it. -/
  again : ∀ {j a}, d j = .value a → d (write a) = .value a
  /-- Replacing before decoding is replacing after it. -/
  replacing : ∀ {j a}, d j = .value a → d j.finiteOnly = .value (replaced a)
  /-- Replacing before writing is replacing after it. -/
  written : ∀ a, write (replaced a) = (write a).finiteOnly

namespace Faithful

variable {d : Decoder α} {write : α → Json} {replaced : α → α}

/-- What is decoded from what was written with its numbers replaced. -/
theorem decode_written (h : Faithful d write replaced) {j : Json} {a : α} (ha : d j = .value a) :
    d (write a).finiteOnly = .value (replaced a) := h.replacing (h.again ha)

/-- Writing a second time writes the same. -/
theorem written_again (h : Faithful d write replaced) (a : α) :
    (write (replaced a)).finiteOnly = (write a).finiteOnly := by
  rw [h.written]
  exact finite_finiteOnly _

/-- Nothing is replaced in what was decoded from a document without numbers that are not finite. -/
theorem replaced_eq (h : Faithful d write replaced) {j : Json} {a : α} (ha : d j = .value a) (hj : j.Finite) :
    replaced a = a := by
  have hreplaced := h.replacing ha
  rw [hj, ha] at hreplaced
  exact (Decoded.value.inj hreplaced).symm

/-! ## Values by shape -/

theorem text : Faithful Decoder.text .text id where
  again _ := rfl
  replacing h := by
    obtain rfl := Decoder.text_eq_value h
    exact h
  written _ := rfl

theorem mapping : Faithful Decoder.mapping .object (Table.mapValues finiteOnly) where
  again _ := rfl
  replacing h := by
    obtain rfl := Decoder.mapping_eq_value h
    rw [finiteOnly_object]
    rfl
  written t := (finiteOnly_object t).symm

/-- A number that is not finite is read as no whole number, so every one that is read as one stays. -/
theorem integer : Faithful Decoder.integer .int id where
  again _ := rfl
  replacing {j n} h := by
    cases j with
    | float x =>
      have hfinite : x.isFinite = true := by
        by_contra hnot
        have hunits : x.units? = none := by
          cases x with
          | finite negative magnitude => exact absurd rfl hnot
          | _ => rfl
        simp only [Decoder.integer, integerOfFloat, hunits] at h
        exact nomatch h
      rw [finiteOnly, if_pos hfinite]
      exact h
    | list items => exact nomatch h
    | object entries => exact nomatch h
    | _ => exact h
  written _ := rfl

/-- What is decoded and is not null is decoded where null would be nothing. -/
theorem nullable_of_value (hnull : ∀ a, d .null ≠ .value a) {j : Json} {a : α} (ha : d j = .value a) :
    Decoder.nullable d j = .value (some a) := by
  unfold Decoder.nullable
  split
  · exact absurd ha (hnull a)
  · rw [ha]
    rfl

/-- Null is written where there is nothing, and is nothing else that is written. -/
theorem nullable (h : Faithful d write replaced) (hnull : ∀ a, d .null ≠ .value a) {write? : Option α → Json}
    (hnone : write? none = .null) (hsome : ∀ a, write? (some a) = write a) :
    Faithful (Decoder.nullable d) write? (Option.map replaced) where
  again {j o} ho := by
    rcases Decoder.nullable_eq_value ho with ⟨-, rfl⟩ | ⟨a, ha, rfl⟩
    · rw [hnone]
      rfl
    · rw [hsome]
      exact nullable_of_value hnull (h.again ha)
  replacing {j o} ho := by
    rcases Decoder.nullable_eq_value ho with ⟨rfl, rfl⟩ | ⟨a, ha, rfl⟩
    · rfl
    · exact nullable_of_value hnull (h.replacing ha)
  written o := by
    cases o with
    | none =>
      rw [Option.map_none, hnone]
      rfl
    | some a => rw [Option.map_some, hsome, hsome, h.written]

theorem list (h : Faithful d write replaced) :
    Faithful (Decoder.list d) (fun as => .list (as.map write)) (List.map replaced) where
  again {j as} ho := by
    obtain ⟨items, -, hitems⟩ := Decoder.list_eq_value ho
    refine Decoder.list_of_forall₂ (List.forall₂_map_left_iff.mpr (List.forall₂_same.mpr fun a ha => ?_))
    obtain ⟨x, -, hx⟩ := exists_mem_of_forall₂ hitems ha
    exact h.again hx
  replacing {j as} ho := by
    obtain ⟨items, rfl, hitems⟩ := Decoder.list_eq_value ho
    rw [finiteOnly, finiteOnlyItems_eq]
    refine Decoder.list_of_forall₂ (List.forall₂_map_left_iff.mpr (List.forall₂_map_right_iff.mpr ?_))
    exact hitems.imp fun x a hx => h.replacing hx
  written as := by
    rw [finiteOnly, finiteOnlyItems_eq, List.map_map, List.map_map]
    exact congrArg Json.list (List.map_congr_left fun a _ => h.written a)

theorem table (h : Faithful d write replaced) :
    Faithful (Decoder.table d) (fun t => .object (t.mapValues write)) (Table.mapValues replaced) where
  again {j t} ho := by
    obtain ⟨entries, -, hentries⟩ := Decoder.table_eq_value ho
    refine Decoder.table_of_forall₂ (List.forall₂_map_left_iff.mpr (List.forall₂_same.mpr fun e he => ⟨rfl, ?_⟩))
    obtain ⟨e', -, -, hdecoded⟩ := exists_mem_of_forall₂ hentries he
    exact h.again hdecoded
  replacing {j t} ho := by
    obtain ⟨entries, rfl, hentries⟩ := Decoder.table_eq_value ho
    rw [finiteOnly_object]
    refine Decoder.table_of_forall₂ (List.forall₂_map_left_iff.mpr (List.forall₂_map_right_iff.mpr ?_))
    exact hentries.imp fun e f hef => ⟨hef.1, h.replacing hef.2⟩
  written t := by
    rw [finiteOnly_object, Table.mapValues_mapValues, Table.mapValues_mapValues, funext h.written]

end Faithful

/-! ## Declared fields

A model is read field by field from one table, and its fields are written into one table. What is said of a decoder
and its writer is said of the fields together, whose document is any table in which what was written of them is
found. -/

/-- A reader of some fields and their writer, which belong together. -/
structure FaithfulFields (fields : List Field) (read : Table Json → Decoded α) (write : α → Table Json)
    (replaced : α → α) : Prop where
  /-- Every field is written, under its first name. -/
  named : ∀ a, (write a).keys = fields.map Field.name
  /-- What was read is read again from every table in which what is written of it is found. -/
  again : ∀ {t t' a}, read t = .value a → (∀ e ∈ write a, t'.get? e.1 = some e.2) → read t' = .value a
  /-- Replacing before reading is replacing after it. -/
  replacing : ∀ {t a}, read t = .value a → read (t.mapValues finiteOnly) = .value (replaced a)
  /-- Replacing before writing is replacing after it. -/
  written : ∀ a, write (replaced a) = (write a).mapValues finiteOnly

/-- The key of a field is told by the keys of the table. -/
theorem Field.key?_congr {f : Field} {s t : Table Json} (h : s.keys = t.keys) : f.key? s = f.key? t := by
  have hhas : ∀ k, s.has k = t.has k := Table.has_congr h
  simp only [key?, funext hhas]

theorem undeclared_mapValues (fields : List Field) (g : Json → Json) (t : Table Json) :
    undeclared fields (t.mapValues g) = (undeclared fields t).mapValues g := by
  have hkeys : (fun f : Field => f.key? (t.mapValues g)) = fun f => f.key? t :=
    funext fun f => Field.key?_congr (Table.keys_mapValues g t)
  rw [undeclared, undeclared, hkeys, Table.without, Table.without, Table.mapValues, Table.mapValues, List.filter_map]
  rfl

namespace FaithfulFields

/-- One field. What it is where the table does not have it must be what is read of what is then written. -/
theorem field {f : Field} {d : Decoder α} {write : α → Json} {replaced : α → α} {absent : Decoded α}
    (h : Faithful d write replaced)
    (habsent : ∀ a, absent = .value a → d (write a) = .value a ∧ replaced a = a) :
    FaithfulFields [f] (fun t => f.read t absent d) (fun a => [(f.name, write a)]) replaced where
  named _ := rfl
  again {t t' a} hread hwritten := by
    have hback : d (write a) = .value a := by
      rcases Field.read_cases hread with ⟨-, hdefault⟩ | ⟨k, j, -, -, hj⟩
      · exact (habsent a hdefault).1
      · exact h.again hj
    rw [Field.read_eq_of_get? (hwritten _ List.mem_cons_self), hback]
    rfl
  replacing {t a} hread := by
    have hkeys : f.key? (t.mapValues finiteOnly) = f.key? t := Field.key?_congr (Table.keys_mapValues finiteOnly t)
    rcases Field.read_cases hread with ⟨hnone, hdefault⟩ | ⟨k, j, hkey, hget, hj⟩
    · simp only [Field.read, hkeys, hnone, hdefault, (habsent a hdefault).2]
    · have hget' : (t.mapValues finiteOnly).get? k = some j.finiteOnly := by
        rw [Table.get?_mapValues, hget, Option.map_some]
      exact Field.read_of_key? (hkeys.trans hkey) hget' absent (h.replacing hj)
  written a := by
    rw [h.written]
    rfl

theorem withDefault {f : Field} {d : Decoder α} {write : α → Json} {replaced : α → α}
    (h : Faithful d write replaced) (default : α) (hback : d (write default) = .value default)
    (hstays : replaced default = default) :
    FaithfulFields [f] (fun t => f.withDefault t default d) (fun a => [(f.name, write a)]) replaced := by
  refine field h fun a ha => ?_
  obtain rfl := Decoded.value.inj ha
  exact ⟨hback, hstays⟩

theorem required {f : Field} {d : Decoder α} {write : α → Json} {replaced : α → α}
    (h : Faithful d write replaced) :
    FaithfulFields [f] (fun t => f.required t d) (fun a => [(f.name, write a)]) replaced :=
  field h fun _ ha => nomatch ha

/-- Fields after fields. -/
theorem pair {fs gs : List Field} {read : Table Json → Decoded α} {read' : Table Json → Decoded β}
    {write : α → Table Json} {write' : β → Table Json} {replaced : α → α} {replaced' : β → β}
    (h : FaithfulFields fs read write replaced) (h' : FaithfulFields gs read' write' replaced') :
    FaithfulFields (fs ++ gs) (fun t => Prod.mk <$> read t <*> read' t) (fun p => write p.1 ++ write' p.2)
      (Prod.map replaced replaced') where
  named p := by
    rw [Table.keys, List.map_append, List.map_append]
    exact congrArg₂ (· ++ ·) (h.named p.1) (h'.named p.2)
  again {t t' p} hread hwritten := by
    obtain ⟨g, b, hg, hb, rfl⟩ := Decoded.seq_eq_value hread
    obtain ⟨a, ha, rfl⟩ := Decoded.map_eq_value hg
    have hleft := h.again ha fun e he => hwritten e (List.mem_append_left _ he)
    have hright := h'.again hb fun e he => hwritten e (List.mem_append_right _ he)
    rw [hleft, hright]
    rfl
  replacing {t p} hread := by
    obtain ⟨g, b, hg, hb, rfl⟩ := Decoded.seq_eq_value hread
    obtain ⟨a, ha, rfl⟩ := Decoded.map_eq_value hg
    rw [h.replacing ha, h'.replacing hb]
    rfl
  written p := by
    rw [Prod.map_fst, Prod.map_snd, h.written, h'.written]
    exact List.map_append.symm

end FaithfulFields

/-! ## Models -/

section Pairs

variable {δ : Type} (x : Decoded α) (y : Decoded β) (z : Decoded γ)

/-- Parts that are combined may be paired first. -/
theorem Decoded.map_pair (f : α → β → γ) :
    f <$> x <*> y = (fun p : α × β => f p.1 p.2) <$> (Prod.mk <$> x <*> y) := by
  cases x <;> cases y <;> rfl

theorem Decoded.map_pair_pair (f : α → β → γ → δ) : f <$> x <*> y <*> z =
    (fun p : (α × β) × γ => f p.1.1 p.1.2 p.2) <$> (Prod.mk <$> (Prod.mk <$> x <*> y) <*> z) := by
  cases x <;> cases y <;> cases z <;> rfl

end Pairs

/-- A key that none of the fields is read from: it is not the first name of one, and where it is the second name of
one, the first name is there too and wins. -/
def Unread (fields : List Field) (j : Json) (k : Text) : Prop :=
  ∀ f ∈ fields, k ≠ f.name ∧ (f.otherName = some k → (j.get? f.name).isSome = true)

instance (fields : List Field) (j : Json) (k : Text) : Decidable (Unread fields j k) :=
  inferInstanceAs (Decidable (∀ f ∈ fields, k ≠ f.name ∧ (f.otherName = some k → (j.get? f.name).isSome = true)))

/-- What stands under a key that no field is read from is not declared. -/
theorem get?_undeclared {fields : List Field} {t : Table Json} {k : Text} (h : Unread fields (.object t) k) :
    (undeclared fields t).get? k = t.get? k := by
  have hkey : k ∉ fields.filterMap fun f => f.key? t := by
    rw [List.mem_filterMap]
    rintro ⟨f, hf, hkey⟩
    rw [Field.key?] at hkey
    split at hkey
    · exact (h f hf).1 (Option.some.inj hkey).symm
    · next hmissing => exact hmissing ((h f hf).2 (Option.filter_eq_some_iff.mp hkey).1)
  exact Table.get?_without hkey t

/-- A model that belongs together with its writer and keeps what is not declared: what stands under a key that no
field is read from is written under it, with its numbers replaced. -/
structure FaithfulModel (fields : List Field) (d : Decoder β) (write : β → Json) (replaced : β → β) : Prop extends
    Faithful d write replaced where
  kept : ∀ {j b k}, d j = .value b → Unread fields j k →
    (write b).finiteOnly.get? k = (j.get? k).map finiteOnly

section Models

variable {fields : List Field} {read : Table Json → Decoded α} {writeFields : α → Table Json}
  {replacedFields : α → α} {d : Decoder β} {write : β → Json} {replaced : β → β}

/-- What was written of the fields is found in the document. -/
theorem FaithfulFields.get?_written (h : FaithfulFields fields read writeFields replacedFields)
    (hdistinct : (fields.map Field.name).Nodup) (a : α) (extras : Table Json) {e : Text × Json}
    (he : e ∈ writeFields a) : Table.get? (writeFields a ++ extras) e.1 = some e.2 := by
  have hkeys : (writeFields a).keys.Nodup := (h.named a).symm ▸ hdistinct
  rw [Table.get?, List.lookup_append, ← Table.get?, Table.get?_of_mem hkeys he, Option.some_or]

/-- **A model belongs together with its writer** if its fields do. Entries that are not declared are in nobody's way
when it is read again, as they do not stand under the first name of a field. `make` puts fields and entries
together. -/
theorem FaithfulFields.model (h : FaithfulFields fields read writeFields replacedFields)
    (hdistinct : (fields.map Field.name).Nodup) (name : Text) (make : α → Table Json → β)
    (hdecodes : d = Schema.model name fun t => (fun a => make a (undeclared fields t)) <$> read t)
    (hwrites : ∀ a extras, write (make a extras) = document (writeFields a) extras)
    (hreplaces : ∀ a extras, replaced (make a extras) = make (replacedFields a) (extras.mapValues finiteOnly))
    (hmade : ∀ b, ∃ a extras, b = make a extras) : FaithfulModel fields d write replaced := by
  have hvalue : ∀ {j b}, d j = .value b →
      ∃ t a, j = .object t ∧ read t = .value a ∧ b = make a (undeclared fields t) := by
    intro j b hb
    rw [hdecodes] at hb
    obtain ⟨t, rfl, hread⟩ := model_eq_value hb
    obtain ⟨a, ha, rfl⟩ := Decoded.map_eq_value hread
    exact ⟨t, a, rfl, ha, rfl⟩
  have hobject : ∀ {t a}, read t = .value a → d (.object t) = .value (make a (undeclared fields t)) := by
    intro t a ha
    rw [hdecodes, Schema.model, ha]
    rfl
  refine ⟨⟨?_, ?_, ?_⟩, ?_⟩
  · intro j b hb
    obtain ⟨t, a, -, ha, rfl⟩ := hvalue hb
    have hfresh : ∀ f ∈ fields, f.name ∉ (undeclared fields t).keys := fun f hf => not_mem_keys_undeclared hf t
    have hread : read (writeFields a ++ undeclared fields t) = .value a :=
      h.again ha fun _ he => h.get?_written hdistinct a (undeclared fields t) he
    rw [hwrites, document, hobject hread, undeclared_append (h.named a) hfresh]
  · intro j b hb
    obtain ⟨t, a, rfl, ha, rfl⟩ := hvalue hb
    rw [finiteOnly_object, hobject (h.replacing ha), undeclared_mapValues, hreplaces]
  · intro b
    obtain ⟨a, extras, rfl⟩ := hmade b
    rw [hreplaces, hwrites, hwrites, h.written, document, document, finiteOnly_object]
    exact congrArg Json.object List.map_append.symm
  · intro j b k hb hk
    obtain ⟨t, a, rfl, -, rfl⟩ := hvalue hb
    have hdeclared : k ∉ (writeFields a).keys := by
      rw [h.named, List.mem_map]
      rintro ⟨f, hf, rfl⟩
      exact (hk f hf).1 rfl
    rw [hwrites, document, finiteOnly_object]
    change Table.get? (Table.mapValues finiteOnly (writeFields a ++ undeclared fields t)) k =
      (Table.get? t k).map finiteOnly
    rw [Table.get?_mapValues, ← get?_undeclared hk, Table.get?, List.lookup_append, ← Table.get?, ← Table.get?,
      Table.get?_eq_none_iff.mpr hdeclared, Option.none_or]

end Models

end Schema

end SolidityBuild
