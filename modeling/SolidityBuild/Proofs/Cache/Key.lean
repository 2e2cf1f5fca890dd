import SolidityBuild.Cache.Key
import SolidityBuild.Proofs.Json.KeyOrder
import SolidityBuild.Proofs.Json.Surrogates
import SolidityBuild.Proofs.Text.Utf8
import Mathlib.Data.Set.Defs

/-!
What the key of a document identifies. The text that is hashed is the compact text of the sorted form;
the compact text is read back, so it determines the sorted form, and the sorted form determines the
document up to the order of keys; so, as UTF-8 keeps texts apart, do keys of documents whose digests do not
collide. A document has no key exactly if its canonical text has no UTF-8 form,
that is, if one of its texts or keys has a surrogate.
-/

set_option autoImplicit false

namespace SolidityBuild

/-- An object as it is read from a text. -/
structure LoadedObject where
  text : Text
  entries : Table Json
  loaded : Json.parse text = .ok (.object entries)

namespace LoadedObject

/-- The object as a value. -/
def json (d : LoadedObject) : Json := .object d.entries

/-- A well-formed object as it is read from its own text. -/
def ofEntries (entries : Table Json) (h : Json.WellFormed Text.PairFree (.object entries)) : LoadedObject :=
  ⟨(Json.object entries).render, entries, Json.parse_render h⟩

theorem wellFormed (d : LoadedObject) : Json.WellFormed (fun _ => True) d.json :=
  Json.wellFormed_of_parse d.loaded

end LoadedObject

namespace Json

variable {p q : Text → Prop} {j j' : Json}

/-- The compact text determines a value. -/
theorem compact_injective (hj : WellFormed p j) (hj' : WellFormed q j')
    (h : j.print .compact = j'.print .compact) : j = j' := by
  have hread := parse_compact hj
  rw [h, parse_compact hj'] at hread
  exact (Except.ok.inj hread).symm

/-- No two floating-point values have the same text. -/
theorem printFloat_injective {x y : Binary64} (h : printFloat x = printFloat y) : x = y := by
  have hprint : ∀ z : Binary64, (float z).print .compact = printFloat z := fun z => by
    rw [print, printAt]
  have hwell : ∀ z : Binary64, WellFormed (fun _ => True) (float z) := .float
  have heq : (float x).print .compact = (float y).print .compact := by rw [hprint, hprint, h]
  exact Json.float.inj (compact_injective (hwell x) (hwell y) heq)

/-- **Documents have the same canonical text exactly if they are equal up to the order of keys.** -/
theorem canonical_eq_iff (hj : WellFormed p j) (hj' : WellFormed q j') :
    j.canonical = j'.canonical ↔ Reordered j j' := by
  rw [← sortKeys_eq_iff hj]
  constructor
  · exact compact_injective hj.sortKeys hj'.sortKeys
  · intro h
    unfold canonical
    rw [h]

theorem scalar_canonical_iff (hj : WellFormed p j) :
    j.canonical.Scalar ↔ ∀ t ∈ j.texts, t.Scalar := by
  rw [canonical, print, scalar_printAt_iff Layout.standard_compact rfl hj.sortKeys]
  exact forall_congr' fun t => imp_congr_left (mem_texts_sortKeys hj t)

end Json

namespace Cache

variable {p q : Text → Prop} {j j' : Json}

theorem key_fails_iff (hj : Json.WellFormed p j) :
    (∃ fault, key j = .error fault) ↔ ¬ ∀ t ∈ j.texts, t.Scalar := by
  rw [← Json.scalar_canonical_iff hj, ← Text.encodeUtf8_fails_iff, key]
  cases Text.encodeUtf8 j.canonical with
  | ok octets => simp only [Except.map, reduceCtorEq, exists_false]
  | error fault => exact iff_of_true ⟨fault, rfl⟩ ⟨fault, rfl⟩

/-- A document without surrogates has a key. -/
theorem exists_key (hj : Json.WellFormed Text.Scalar j) : ∃ k, key j = .ok k := by
  have htexts := (Json.scalar_canonical_iff hj).mpr hj.holds_of_mem_texts
  exact ⟨_, by rw [key, Text.encodeUtf8_of_scalar htexts]; rfl⟩

/-- Documents that are equal up to the order of keys have the same key. -/
theorem key_eq_of_reordered (hj : Json.WellFormed p j) (h : Json.Reordered j j') : key j = key j' := by
  unfold key Json.canonical
  rw [Json.sortKeys_eq_of_reordered hj h]

/-- No two of some documents collide: if the texts that are hashed have the same digest, they are the same. -/
def Collisionless (documents : Set Json) : Prop :=
  ∀ d ∈ documents, ∀ e ∈ documents, ∀ s t, Text.encodeUtf8 d.canonical = .ok s →
    Text.encodeUtf8 e.canonical = .ok t → sha256 s = sha256 t → s = t

/-- Where no documents collide, those with the same key are equal up to the order of keys. -/
theorem Collisionless.reordered {documents : Set Json} (h : Collisionless documents) {d e : Json}
    (hd : d ∈ documents) (he : e ∈ documents) (hdw : Json.WellFormed p d) (hew : Json.WellFormed q e)
    {k : Text} (hdk : key d = .ok k) (hek : key e = .ok k) : Json.Reordered d e := by
  rw [← Json.canonical_eq_iff hdw hew]
  unfold key at hdk hek
  cases hds : Text.encodeUtf8 d.canonical with
  | error fault =>
    rw [hds] at hdk
    exact nomatch hdk
  | ok s =>
    cases het : Text.encodeUtf8 e.canonical with
    | error fault =>
      rw [het] at hek
      exact nomatch hek
    | ok t =>
      rw [hds] at hdk
      rw [het] at hek
      have hdigest : sha256 s = sha256 t := Except.ok.inj (hdk.trans hek.symm)
      obtain rfl := h d hd e he s t hds het hdigest
      exact Text.encodeUtf8_injective hds het

/-- The documents that are equal to one up to the order of keys do not collide. -/
theorem Collisionless.of_reordered {documents : Set Json} (hj : Json.WellFormed p j)
    (h : ∀ d ∈ documents, Json.Reordered j d) : Collisionless documents := by
  have hcanonical : ∀ d ∈ documents, d.canonical = j.canonical := by
    intro d hd
    unfold Json.canonical
    rw [Json.sortKeys_eq_of_reordered hj (h d hd)]
  intro d hd e he s t hs ht _
  rw [hcanonical d hd, ← hcanonical e he, ht] at hs
  exact (Except.ok.inj hs).symm

/-- **What a key identifies.** Documents have the same hashed text exactly if they are equal up to the
order of keys, where floating-point values are compared by their texts, and a document has no key exactly
if a surrogate stands in one of its texts or keys. -/
theorem canonical_eq_iff_reordered_and_key_fails_iff_surrogate (d e : LoadedObject) :
    (d.json.canonical = e.json.canonical ↔ Json.Reordered d.json e.json) ∧
      (∀ x y : Binary64, Json.Reordered (.float x) (.float y) ↔
        Json.printFloat x = Json.printFloat y) ∧
      ((∃ fault, key d.json = .error fault) ↔ ∃ t ∈ d.json.texts, ∃ c ∈ t, c.isSurrogate = true) := by
  refine ⟨Json.canonical_eq_iff d.wellFormed e.wellFormed, ?_, ?_⟩
  · intro x y
    constructor
    · intro h
      cases h
      rfl
    · intro h
      rw [Json.printFloat_injective h]
      exact .refl _
  · rw [key_fails_iff d.wellFormed]
    simp only [Text.Scalar, not_forall, Bool.not_eq_false, exists_prop]

end Cache

end SolidityBuild
