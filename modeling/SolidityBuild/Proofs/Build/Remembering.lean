import SolidityBuild.Build.Workshop
import SolidityBuild.Proofs.Build.Results
import SolidityBuild.Proofs.Cache.Memory

/-!
Compilations on any backend that keeps its documents in a store in memory, wherever in its state this store
is and whatever its compiler does. The result of a compilation is taken apart once: its document is recorded,
an answer that is held is read, or else the compiler is invoked on what is recorded and its answer stored, and
the answer is normalized.
-/

set_option autoImplicit false

namespace SolidityBuild

/-- A backend whose documents are in a store in memory, which is a part of its state: looking and reading
leave the state alone, and writing changes this part of it only. -/
structure Backend.Remembers {σ : Type} (backend : Backend σ) (memory : σ → MemoryStore)
    (remember : σ → MemoryStore → σ) : Prop where
  has : ∀ s entry, (backend.has entry).result s = (s, .ok ((memory s).has entry))
  read : ∀ s entry, (backend.read entry).result s = (s, (memory s).read entry)
  write : ∀ s entry value, (backend.write entry value).result s =
    (remember s (Table.put (memory s) entry value.render), .ok ())
  memory_remember : ∀ s m, memory (remember s m) = m
  remember_memory : ∀ s, remember s (memory s) = s

namespace Backend.Remembers

variable {σ : Type} {backend : Backend σ} {memory : σ → MemoryStore} {remember : σ → MemoryStore → σ}
  {k : Text}

theorem result_resolve (h : backend.Remembers memory remember) (s : σ) {document : Json}
    (hk : Cache.key document = .ok k) :
    (CacheState.resolve document).result backend s =
      (remember s ((memory s).record k document), .ok ⟨k, (memory s).has (Cache.outputEntry k)⟩) := by
  rw [CacheState.resolve, hk, ← MemoryStore.has_outputEntry_record _ k document, MemoryStore.record]
  dsimp only
  rw [Program.result_has, h.has, follow_ok]
  by_cases hrecorded : (memory s).has (Cache.inputEntry k) = true
  · rw [if_pos hrecorded, if_pos hrecorded, Program.result_has, h.has, h.remember_memory]
    exact Program.result_tell _ _ _ s
  · rw [if_neg hrecorded, if_neg hrecorded, Program.result_write, h.write,
      follow_ok, Program.result_has, h.has, h.memory_remember]
    exact Program.result_tell _ _ _ _

/-- An answer that is held is read, and nothing else happens. -/
theorem result_answer_held (h : backend.Remembers memory remember) (s : σ) (version : Text) :
    (CacheState.answer ⟨k, true⟩ version).result backend s = (s, (memory s).read (Cache.outputEntry k)) := by
  rw [CacheState.answer, if_pos rfl, Program.result_tell, Program.result_read, h.read]
  cases (memory s).read (Cache.outputEntry k) <;> rfl

/-- Without an answer the compiler is invoked on the document that is recorded, and what it answers is
stored. -/
theorem result_answer_fresh (h : backend.Remembers memory remember) (s : σ) (version : Text) :
    (CacheState.answer ⟨k, false⟩ version).result backend s =
      follow (s, (memory s).read (Cache.inputEntry k)) fun request s =>
        follow ((backend.invoke version request).result s) fun report s =>
          (remember s (Table.put (memory s) (Cache.outputEntry k) report.render), .ok report) := by
  rw [CacheState.answer, if_neg Bool.false_ne_true, Program.result_read, h.read]
  refine follow_congr _ fun request s => ?_
  rw [Program.result_invoke]
  refine follow_congr _ fun report s => ?_
  rw [Program.result_write, h.write]
  exact Program.result_tell _ _ _ _

/-- A compilation by a backend that remembers. -/
theorem result_compile (h : backend.Remembers memory remember) (s : σ) {r : CompileRequest} (version : Text)
    (selection : Selection) (post : Postprocessing) (hk : Cache.key (.object r.document) = .ok k) :
    (r.compile version selection post).result backend s =
      follow ((CacheState.answer ⟨k, (memory s).has (Cache.outputEntry k)⟩ version).result backend
          (remember s ((memory s).record k (.object r.document))))
        fun report s =>
          (s, (Bundle.normalize report (.text version) (.object r.document) selection post).outcome) := by
  rw [CompileRequest.result_compile, h.result_resolve s hk, follow_ok]

end Backend.Remembers

/-! ## Workshops -/

namespace Workshop

/-- The workshop with another store in memory. -/
def withMemory (w : Workshop) (m : MemoryStore) : Workshop := { w with memory := m }

theorem remembers (timeLimit : Nat) : (backend .memory timeLimit).Remembers memory withMemory where
  has _ _ := rfl
  read _ _ := rfl
  write _ _ _ := rfl
  memory_remember _ _ := rfl
  remember_memory _ := rfl

end Workshop

end SolidityBuild
