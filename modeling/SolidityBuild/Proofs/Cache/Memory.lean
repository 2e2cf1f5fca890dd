import SolidityBuild.Cache.Key
import SolidityBuild.Cache.Store
import SolidityBuild.Proofs.Json.RoundTrip
import SolidityBuild.Proofs.Table
import Mathlib.Data.Set.Defs

/-!
The store in memory. Documents and answers have entries of their own, a well-formed value is read back as
it was written, and a store in which only new entries are written keeps all that it has. Recording a document
is writing it unless its entry is there.
-/

set_option autoImplicit false

namespace SolidityBuild

open Json

/-! ## Entries -/

namespace Cache

theorem inputEntry_injective {d e : Text} (h : inputEntry d = inputEntry e) : d = e :=
  List.append_cancel_left h

theorem outputEntry_injective {d e : Text} (h : outputEntry d = outputEntry e) : d = e :=
  List.append_cancel_left h

theorem prefixes_differ : ("compile_config_" : Text).length = ("compile_output_" : Text).length ∧
    ("compile_config_" : Text) ≠ "compile_output_" := by decide

theorem inputEntry_ne_outputEntry (d e : Text) : inputEntry d ≠ outputEntry e := by
  intro h
  exact prefixes_differ.2 (List.append_inj_left h prefixes_differ.1)

/-- The entries of documents that have a key. -/
def IsEntry (entry : Text) : Prop :=
  ∃ document k, key document = .ok k ∧ (entry = inputEntry k ∨ entry = outputEntry k)

theorem IsEntry.input {document : Json} {k : Text} (hk : key document = .ok k) : IsEntry (inputEntry k) :=
  ⟨document, k, hk, .inl rfl⟩

theorem IsEntry.output {document : Json} {k : Text} (hk : key document = .ok k) : IsEntry (outputEntry k) :=
  ⟨document, k, hk, .inr rfl⟩

end Cache

namespace MemoryStore

variable {m m' : MemoryStore} {name name' t : Text} {j : Json}

theorem has_iff_exists : m.has name = true ↔ ∃ t, Table.get? m name = some t := by
  unfold has Table.has
  exact Option.isSome_iff_exists

theorem has_of_read (h : m.read name = .ok j) : m.has name = true := by
  rw [has_iff_exists]
  cases hget : Table.get? m name with
  | none =>
    unfold read at h
    rw [hget] at h
    exact nomatch h
  | some t => exact ⟨t, rfl⟩

theorem read_congr (h : Table.get? m name = Table.get? m' name) : m.read name = m'.read name := by
  unfold read
  rw [h]

theorem get?_put_self (m : MemoryStore) (name t : Text) :
    Table.get? (Table.put m name t) name = some t := Table.get?_put_self m name t

/-- What is written is read back. -/
theorem read_put_self (m : MemoryStore) (name : Text) (hj : WellFormed Text.PairFree j) :
    read (Table.put m name j.render) name = .ok j := by
  unfold read
  rw [Table.get?_put_self]
  dsimp only
  rw [parse_render hj]

theorem read_put_of_ne (h : name' ≠ name) (m : MemoryStore) (t : Text) :
    read (Table.put m name t) name' = read m name' :=
  read_congr (Table.get?_put_of_ne h m t)

theorem has_put_self (m : MemoryStore) (name t : Text) : has (Table.put m name t) name = true :=
  has_iff_exists.mpr ⟨t, Table.get?_put_self m name t⟩

theorem has_put_of_ne (h : name' ≠ name) (m : MemoryStore) (t : Text) :
    has (Table.put m name t) name' = has m name' := by
  unfold has Table.has
  rw [Table.get?_put_of_ne h]

/-! ## Stores that keep what they hold -/

/-- Every entry of the first store is in the second one as it is in the first. -/
def Extends (m m' : MemoryStore) : Prop :=
  ∀ name t, Table.get? m name = some t → Table.get? m' name = some t

theorem Extends.refl (m : MemoryStore) : m.Extends m := by
  intro name t h
  exact h

theorem Extends.trans {m₁ m₂ m₃ : MemoryStore} (h : m₁.Extends m₂) (h' : m₂.Extends m₃) :
    m₁.Extends m₃ := by
  intro name t ht
  exact h' name t (h name t ht)

theorem Extends.read (h : m.Extends m') (hm : m.read name = .ok j) : m'.read name = .ok j := by
  obtain ⟨t, ht⟩ := has_iff_exists.mp (has_of_read hm)
  rw [← hm]
  exact read_congr (by rw [ht, h name t ht])

theorem extends_put (h : m.has name = false) (t : Text) : m.Extends (Table.put m name t) := by
  intro name' t' ht'
  have hne : name' ≠ name := by
    rintro rfl
    rw [has_iff_exists.mpr ⟨t', ht'⟩] at h
    exact nomatch h
  rw [Table.get?_put_of_ne hne, ht']

/-! ## Stores that keep their entries -/

/-- Every entry of the first store is in the second one, with whatever value. -/
def Persists (m m' : MemoryStore) : Prop := ∀ name, m.has name = true → m'.has name = true

theorem Persists.refl (m : MemoryStore) : m.Persists m := fun _ h => h

theorem Persists.trans {m₁ m₂ m₃ : MemoryStore} (h : m₁.Persists m₂) (h' : m₂.Persists m₃) : m₁.Persists m₃ :=
  fun name hm => h' name (h name hm)

theorem persists_put (m : MemoryStore) (name t : Text) : m.Persists (Table.put m name t) := by
  intro name' h
  by_cases hne : name' = name
  · rw [hne]
    exact has_put_self m name t
  · rw [has_put_of_ne hne]
    exact h

/-! ## Recording a document -/

/-- The store once a document is recorded under a key; what was recorded under the key stays. -/
def record (m : MemoryStore) (k : Text) (document : Json) : MemoryStore :=
  if m.has (Cache.inputEntry k) then m else Table.put m (Cache.inputEntry k) document.render

theorem extends_record (m : MemoryStore) (k : Text) (document : Json) :
    m.Extends (m.record k document) := by
  unfold record
  split
  · exact .refl m
  · next h => exact extends_put (Bool.eq_false_iff.mpr h) _

theorem has_outputEntry_record (m : MemoryStore) (k : Text) (document : Json) (d : Text) :
    (m.record k document).has (Cache.outputEntry d) = m.has (Cache.outputEntry d) := by
  unfold record
  split
  · rfl
  · exact has_put_of_ne (Ne.symm (Cache.inputEntry_ne_outputEntry k d)) m _

theorem has_inputEntry_record (m : MemoryStore) (k : Text) (document : Json) :
    (m.record k document).has (Cache.inputEntry k) = true := by
  unfold record
  split
  · assumption
  · exact has_put_self m _ _

/-! ## Stores of known documents -/

/-- Every document that is recorded is one of those given, and has the key under which it stands. -/
def Recorded (documents : Set Json) (m : MemoryStore) : Prop :=
  ∀ d, m.has (Cache.inputEntry d) = true →
    ∃ document ∈ documents, Cache.key document = .ok d ∧ m.read (Cache.inputEntry d) = .ok document

namespace Recorded

variable {documents more : Set Json} {k : Text} {document : Json}

theorem empty (documents : Set Json) : Recorded documents [] := fun _ h => nomatch h

theorem mono (h : Recorded documents m) (hsub : documents ⊆ more) : Recorded more m := by
  intro d hd
  obtain ⟨document, hmem, hkey, hread⟩ := h d hd
  exact ⟨document, hsub hmem, hkey, hread⟩

/-- One of the documents may be written under its key, even over another one with the same key. -/
theorem put_input (h : Recorded documents m) (hmem : document ∈ documents)
    (hwell : WellFormed Text.PairFree document) (hk : Cache.key document = .ok k) :
    Recorded documents (Table.put m (Cache.inputEntry k) document.render) := by
  intro d hd
  by_cases hdk : d = k
  · subst hdk
    exact ⟨document, hmem, hk, read_put_self m _ hwell⟩
  · have hne : Cache.inputEntry d ≠ Cache.inputEntry k := fun he => hdk (Cache.inputEntry_injective he)
    rw [has_put_of_ne hne] at hd
    rw [read_put_of_ne hne]
    exact h d hd

/-- Answers may be written as they come. -/
theorem put_output (h : Recorded documents m) (k t : Text) :
    Recorded documents (Table.put m (Cache.outputEntry k) t) := by
  intro d hd
  have hne := Cache.inputEntry_ne_outputEntry d k
  rw [has_put_of_ne hne] at hd
  rw [read_put_of_ne hne]
  exact h d hd

theorem record (h : Recorded documents m) (hmem : document ∈ documents)
    (hwell : WellFormed Text.PairFree document) (hk : Cache.key document = .ok k) :
    Recorded documents (m.record k document) := by
  unfold MemoryStore.record
  split
  · exact h
  · exact h.put_input hmem hwell hk

end Recorded

end MemoryStore

end SolidityBuild
