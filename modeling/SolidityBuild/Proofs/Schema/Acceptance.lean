import SolidityBuild.Proofs.Schema.Decoder

/-!
What a decoder accepts. Decoders list faults, so whether a value is accepted is a question of its own, to which the
faults do not matter: a combination accepts what all of its parts accept, a table accepts objects whose values are
accepted, and a field that may be left out accepts every table whose value under its name, if there is one, is
accepted. Each lemma here is such an equivalence, and a decoder of documents is opened by rewriting with them.
-/

set_option autoImplicit false

namespace SolidityBuild

namespace Schema

variable {α β γ : Type}

/-- Decoding gave a value. -/
def Decoded.Accepts (x : Decoded α) : Prop := ∃ a, x = .value a

namespace Decoded

@[simp] theorem accepts_value (a : α) : (value a).Accepts := ⟨a, rfl⟩

@[simp] theorem not_accepts_faulty (faults : List Fault) : ¬ (faulty faults : Decoded α).Accepts := by
  rintro ⟨a, ha⟩
  exact nomatch ha

@[simp] theorem accepts_inside_iff {step : PathStep} {x : Decoded α} : (x.inside step).Accepts ↔ x.Accepts := by
  cases x with
  | value a => exact iff_of_true ⟨a, rfl⟩ ⟨a, rfl⟩
  | faulty faults => exact iff_of_false (not_accepts_faulty _) (not_accepts_faulty _)

@[simp] theorem accepts_map_iff {f : α → β} {x : Decoded α} : (f <$> x).Accepts ↔ x.Accepts := by
  cases x with
  | value a => exact iff_of_true ⟨f a, rfl⟩ ⟨a, rfl⟩
  | faulty faults => exact iff_of_false (not_accepts_faulty faults) (not_accepts_faulty faults)

/-- A combination accepts what both of its parts accept. -/
@[simp] theorem accepts_seq_iff {f : Decoded (α → β)} {x : Decoded α} :
    (f <*> x).Accepts ↔ f.Accepts ∧ x.Accepts := by
  constructor
  · rintro ⟨b, hb⟩
    obtain ⟨g, a, hg, ha, -⟩ := seq_eq_value hb
    exact ⟨⟨g, hg⟩, a, ha⟩
  · rintro ⟨⟨g, rfl⟩, a, rfl⟩
    exact ⟨g a, rfl⟩

theorem toExcept_eq_ok_iff {expected : Text} {x : Decoded α} {a : α} :
    x.toExcept expected = .ok a ↔ x = .value a := by
  constructor
  · exact toExcept_eq_ok
  · rintro rfl
    rfl

end Decoded

/-! ## Shapes of values -/

namespace Decoder

theorem text_accepts_iff {j : Json} : (Decoder.text j).Accepts ↔ ∃ t, j = .text t := by
  constructor
  · rintro ⟨t, ht⟩
    exact ⟨t, text_eq_value ht⟩
  · rintro ⟨t, rfl⟩
    exact ⟨t, rfl⟩

theorem nonEmptyText_accepts_iff {j : Json} : (nonEmptyText j).Accepts ↔ ∃ t, j = .text t ∧ t ≠ [] := by
  constructor
  · rintro ⟨t, ht⟩
    exact ⟨t, nonEmptyText_eq_value ht, ne_nil_of_nonEmptyText ht⟩
  · rintro ⟨t, rfl, ht⟩
    exact ⟨t, nonEmptyText_text ht⟩

theorem mapping_accepts_iff {j : Json} : (mapping j).Accepts ↔ ∃ t, j = .object t := by
  constructor
  · rintro ⟨t, ht⟩
    exact ⟨t, mapping_eq_value ht⟩
  · rintro ⟨t, rfl⟩
    exact ⟨t, rfl⟩

theorem entriesOf_accepts_iff {d : Decoder α} {entries : List (Text × Json)} :
    (entriesOf d entries).Accepts ↔ ∀ e ∈ entries, (d e.2).Accepts := by
  induction entries with
  | nil => exact iff_of_true ⟨[], rfl⟩ (List.forall_mem_nil _)
  | cons e entries ih =>
    rw [entriesOf, Decoded.accepts_seq_iff, Decoded.accepts_map_iff, Decoded.accepts_inside_iff, ih,
      List.forall_mem_cons]

/-- A table is accepted if it is an object each of whose values is accepted. -/
theorem table_accepts_iff {d : Decoder α} {j : Json} :
    (table d j).Accepts ↔ ∃ entries, j = .object entries ∧ ∀ e ∈ entries, (d e.2).Accepts := by
  constructor
  · rintro ⟨t, ht⟩
    obtain ⟨entries, rfl, -⟩ := table_eq_value ht
    exact ⟨entries, rfl, entriesOf_accepts_iff.mp ⟨t, ht⟩⟩
  · rintro ⟨entries, rfl, h⟩
    exact entriesOf_accepts_iff.mpr h

end Decoder

theorem model_accepts_iff {name : Text} {read : Table Json → Decoded α} {j : Json} :
    (model name read j).Accepts ↔ ∃ t, j = .object t ∧ (read t).Accepts := by
  constructor
  · rintro ⟨a, ha⟩
    obtain ⟨t, rfl, ht⟩ := model_eq_value ha
    exact ⟨t, rfl, a, ht⟩
  · rintro ⟨t, rfl, h⟩
    exact h

/-! ## Fields -/

namespace Field

/-- The key of a field is a key of the table. -/
theorem has_of_key? {f : Field} {t : Table Json} {k : Text} (h : f.key? t = some k) : t.has k = true := by
  rw [key?] at h
  split at h
  · next hname =>
    rw [← Option.some.inj h]
    exact hname
  · exact (Option.filter_eq_some_iff.mp h).2

/-- A field is read from under its key, or it is absent. -/
theorem read_cases {f : Field} {t : Table Json} {absent : Decoded α} {d : Decoder α} {a : α}
    (h : f.read t absent d = .value a) : (f.key? t = none ∧ absent = .value a) ∨
      ∃ k j, f.key? t = some k ∧ t.get? k = some j ∧ d j = .value a := by
  rw [read] at h
  cases hkey : f.key? t with
  | none =>
    rw [hkey] at h
    exact .inl ⟨rfl, h⟩
  | some k =>
    obtain ⟨j, hj⟩ := Option.isSome_iff_exists.mp (has_of_key? hkey)
    simp only [hkey, hj] at h
    exact .inr ⟨k, j, rfl, hj, Decoded.inside_eq_value h⟩

theorem read_of_key? {f : Field} {t : Table Json} {k : Text} {j : Json} {a : α} {d : Decoder α}
    (hkey : f.key? t = some k) (hget : t.get? k = some j) (absent : Decoded α) (hj : d j = .value a) :
    f.read t absent d = .value a := by
  simp only [read, hkey, hget, hj]
  rfl

theorem read_eq_absent {name : Text} {t : Table Json} (h : t.get? name = none) (absent : Decoded α)
    (d : Decoder α) : read ⟨name, none⟩ t absent d = absent := by
  have hhas : t.has name = false := by rw [Table.has, h, Option.isSome_none]
  simp only [read, key?_eq_none hhas]

theorem required_accepts_iff {name : Text} {t : Table Json} {d : Decoder α} :
    (required ⟨name, none⟩ t d).Accepts ↔ ∃ j, t.get? name = some j ∧ (d j).Accepts := by
  rw [required]
  cases hget : t.get? name with
  | none =>
    rw [read_eq_absent hget]
    refine iff_of_false (Decoded.not_accepts_faulty _) ?_
    rintro ⟨j, hj, -⟩
    exact nomatch hj
  | some j =>
    rw [read_eq_of_get? hget, Decoded.accepts_inside_iff]
    simp only [Option.some.injEq, exists_eq_left']

theorem withDefault_accepts_iff {name : Text} {t : Table Json} {default : α} {d : Decoder α} :
    (withDefault ⟨name, none⟩ t default d).Accepts ↔ ∀ j, t.get? name = some j → (d j).Accepts := by
  rw [withDefault]
  cases hget : t.get? name with
  | none =>
    rw [read_eq_absent hget]
    refine iff_of_true ⟨default, rfl⟩ ?_
    intro j hj
    exact nomatch hj
  | some j =>
    rw [read_eq_of_get? hget, Decoded.accepts_inside_iff]
    simp only [Option.some.injEq, forall_eq']

end Field

/-- Where no field has a second name, what is not declared is what stands under other names. -/
theorem undeclared_eq_without {fields : List Field} (h : ∀ f ∈ fields, f.otherName = none) (t : Table Json) :
    undeclared fields t = t.without (fields.map Field.name) := by
  refine List.filter_congr fun e he => ?_
  have hmem : (e.1 ∈ fields.filterMap fun f => f.key? t) ↔ e.1 ∈ fields.map Field.name := by
    rw [List.mem_filterMap, List.mem_map]
    refine exists_congr fun f => and_congr_right fun hf => ?_
    obtain ⟨name, other⟩ := f
    obtain rfl : other = none := h _ hf
    constructor
    · intro hkey
      cases hhas : t.has name with
      | true => rwa [Field.key?_eq_some hhas, Option.some.injEq] at hkey
      | false =>
        rw [Field.key?_eq_none hhas] at hkey
        exact nomatch hkey
    · rintro rfl
      exact Field.key?_eq_some (Table.has_iff.mpr (Table.mem_keys_of_mem he))
  simp only [List.contains_eq_mem, hmem]

end Schema

end SolidityBuild
