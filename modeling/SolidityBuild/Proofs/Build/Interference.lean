import SolidityBuild.Proofs.Build.Step
import SolidityBuild.Proofs.Build.StoreInvariant

/-!
Compilations under interference. Between two steps of a compilation others may write to the store, as long as
they keep an invariant and remove nothing. A computation is *safe* if, whatever store its steps meet on these
terms, they keep the terms too, every entry that it reads is there, and its outcome is as wanted. A compilation
is safe under the invariant that every recorded document is one of those that are compiled, under its key, and
that every answer is what the compiler gives for the document beside it; its outcome is made of the answer of
the compiler to its own document.
-/

set_option autoImplicit false

namespace SolidityBuild

open Json

/-! ## Safe computations -/

section Safety

variable {α β : Type} (inv : MemoryStore → Prop) (compiler : CompilerModel)

/-- What holds of every store that may be met from now on. -/
def MemoryStore.Henceforth (P : MemoryStore → Prop) (m : MemoryStore) : Prop :=
  ∀ m', inv m' → m.Persists m' → P m'

open MemoryStore in
/-- What is left of a computation is safe from a store on: it keeps the invariant, reads what is there, is
answered by the compiler, and ends with an outcome as wanted, whatever others do in between. -/
def Program.Safe (wanted : Except Failure α → MemoryStore → Prop) : Program α → MemoryStore → Prop
  | done value => Henceforth inv (wanted (.ok value))
  | fail failure => Henceforth inv (wanted (.error failure))
  | tell _ next => Henceforth inv (next.Safe wanted)
  | has entry next => Henceforth inv fun m => (next (m.has entry)).Safe wanted m
  | read entry next =>
    Henceforth inv fun m => ∃ value, m.read entry = .ok value ∧ (next value).Safe wanted m
  | write entry value next =>
    Henceforth inv fun m =>
      inv (Table.put m entry value.render) ∧ next.Safe wanted (Table.put m entry value.render)
  | invoke version request next =>
    Henceforth inv fun m =>
      ∃ answer, compiler version request = .ok answer ∧ (next answer.json).Safe wanted m
  | framework _ _ _ => Henceforth inv fun _ => False

namespace Program.Safe

variable {inv compiler} {wanted : Except Failure α → MemoryStore → Prop} {m : MemoryStore}

/-- Being safe is up to the stores that may be met. -/
theorem of_henceforth {x : Program α} (h : m.Henceforth inv (x.Safe inv compiler wanted)) :
    x.Safe inv compiler wanted m := by
  cases x <;> exact fun m' hinv hm => h m' hinv hm m' hinv (.refl m')

/-- What others do leaves a computation safe. -/
theorem mono {x : Program α} {m' : MemoryStore} (h : x.Safe inv compiler wanted m) (hm : m.Persists m') :
    x.Safe inv compiler wanted m' := by
  cases x <;> exact fun m'' hinv hm' => h m'' hinv (hm.trans hm')

theorem ofNarrated {x : Narrated α} (h : m.Henceforth inv (wanted x.outcome)) :
    (Program.ofNarrated x).Safe inv compiler wanted m := by
  obtain ⟨events, outcome⟩ := x
  rw [Program.ofNarrated]
  induction events with
  | nil => cases outcome <;> exact h
  | cons event events ih => exact fun m' hinv hm => mono (ih h) hm

/-- A safe computation may be gone on with. -/
theorem andThen {x : Program α} {f : α → Program β} {wanted' : Except Failure β → MemoryStore → Prop}
    (h : x.Safe inv compiler wanted m)
    (hok : ∀ a m, wanted (.ok a) m → (f a).Safe inv compiler wanted' m)
    (herror : ∀ e m, wanted (.error e) m → wanted' (.error e) m) :
    (x.andThen f).Safe inv compiler wanted' m := by
  induction x generalizing m with
  | done value => exact of_henceforth fun m' hinv hm => hok value m' (h m' hinv hm)
  | fail failure => exact fun m' hinv hm => herror failure m' (h m' hinv hm)
  | tell event next ih => exact fun m' hinv hm => ih (h m' hinv hm)
  | has entry next ih => exact fun m' hinv hm => ih _ (h m' hinv hm)
  | read entry next ih =>
    intro m' hinv hm
    obtain ⟨value, hread, hnext⟩ := h m' hinv hm
    exact ⟨value, hread, ih value hnext⟩
  | write entry value next ih =>
    intro m' hinv hm
    obtain ⟨hinv', hnext⟩ := h m' hinv hm
    exact ⟨hinv', ih hnext⟩
  | invoke version request next ih =>
    intro m' hinv hm
    obtain ⟨answer, hanswer, hnext⟩ := h m' hinv hm
    exact ⟨answer, hanswer, ih answer.json hnext⟩
  | framework kind folder next ih => exact h

/-- **A step of a safe computation** keeps the invariant and all entries, and leaves the rest safe. -/
theorem step {x x' : Program α} {s s' : Session}
    (h : x.Safe inv compiler wanted s.memory) (hinv : inv s.memory)
    (hstep : x.step (Session.backend compiler) s = some (s', x')) :
    inv s'.memory ∧ s.memory.Persists s'.memory ∧ x'.Safe inv compiler wanted s'.memory := by
  have hremembers := Session.remembers compiler
  have hself := MemoryStore.Persists.refl s.memory
  cases x with
  | done value => exact nomatch hstep
  | fail failure => exact nomatch hstep
  | tell event next =>
    cases hstep
    exact ⟨hinv, hself, h _ hinv hself⟩
  | has entry next =>
    rw [Program.step, hremembers.has] at hstep
    cases hstep
    exact ⟨hinv, hself, h _ hinv hself⟩
  | read entry next =>
    obtain ⟨value, hread, hnext⟩ := h _ hinv hself
    rw [Program.step, hremembers.read, hread] at hstep
    cases hstep
    exact ⟨hinv, hself, hnext⟩
  | write entry value next =>
    obtain ⟨hinv', hnext⟩ := h _ hinv hself
    rw [Program.step, hremembers.write] at hstep
    cases hstep
    exact ⟨hinv', MemoryStore.persists_put _ _ _, hnext⟩
  | invoke version request next =>
    obtain ⟨answer, hanswer, hnext⟩ := h _ hinv hself
    rw [Program.step, Session.result_invoke, hanswer] at hstep
    cases hstep
    exact ⟨hinv, hself, hnext⟩
  | framework kind folder next => exact (h _ hinv hself).elim

end Program.Safe

end Safety

/-! ## The store that compilations share -/

/-- A compiler that gives documents with the same key the same answer. -/
def DecidedByKey (documents : Set Json) (compile : Json → Answer) : Prop :=
  ∀ d ∈ documents, ∀ e ∈ documents, ∀ k, Cache.key d = .ok k → Cache.key e = .ok k → compile d = compile e

/-- Where documents do not collide, a compiler that does not see the order of keys is one. -/
theorem DecidedByKey.of_collisionless {documents : Set Json} {compile : Json → Answer}
    (hdocuments : Cache.Collisionless documents)
    (hwell : ∀ d ∈ documents, WellFormed Text.PairFree d)
    (hcompile : ∀ d e, Reordered d e → compile d = compile e) : DecidedByKey documents compile := by
  intro d hd e he k hdk hek
  exact hcompile d e (hdocuments.reordered hd he (hwell d hd) (hwell e he) hdk hek)

/-- What holds of the store at every moment: every document that is recorded is one of those given, under its
key, and every answer is the one that the compiler gives for the document beside it. -/
structure SharedInvariant (documents : Set Json) (compile : Json → Answer) (m : MemoryStore) : Prop where
  recorded : m.Recorded documents
  answered : ∀ d, m.has (Cache.outputEntry d) = true → ∃ document,
    m.read (Cache.inputEntry d) = .ok document ∧ m.read (Cache.outputEntry d) = .ok (compile document).json

namespace SharedInvariant

variable {documents : Set Json} {compile : Json → Answer} {m : MemoryStore} {k : Text} {document : Json}

theorem empty : SharedInvariant documents compile [] where
  recorded := .empty documents
  answered _ h := nomatch h

/-- What is recorded under the key of a document gets the answer of this document. -/
theorem exists_recorded (h : SharedInvariant documents compile m) (hkeys : DecidedByKey documents compile)
    (hmem : document ∈ documents) (hk : Cache.key document = .ok k)
    (hhas : m.has (Cache.inputEntry k) = true) :
    ∃ d, m.read (Cache.inputEntry k) = .ok d ∧ compile d = compile document := by
  obtain ⟨d, hd, hdk, hread⟩ := h.recorded k hhas
  exact ⟨d, hread, hkeys d hd document hmem k hdk hk⟩

/-- An answer under the key of a document is the answer to this document. -/
theorem read_outputEntry (h : SharedInvariant documents compile m) (hkeys : DecidedByKey documents compile)
    (hmem : document ∈ documents) (hk : Cache.key document = .ok k)
    (hhas : m.has (Cache.outputEntry k) = true) :
    m.read (Cache.outputEntry k) = .ok (compile document).json := by
  obtain ⟨d, hrecorded, hread⟩ := h.answered k hhas
  obtain ⟨d', hread', hsame⟩ := h.exists_recorded hkeys hmem hk (MemoryStore.has_of_read hrecorded)
  rw [hrecorded] at hread'
  rw [hread, Except.ok.inj hread', hsame]

/-- A document may be recorded over one with the same key: the answer beside it, if there is one, stays
right. -/
theorem put_input (h : SharedInvariant documents compile m) (hkeys : DecidedByKey documents compile)
    (hmem : document ∈ documents) (hwell : WellFormed Text.PairFree document)
    (hk : Cache.key document = .ok k) :
    SharedInvariant documents compile (Table.put m (Cache.inputEntry k) document.render) := by
  refine ⟨h.recorded.put_input hmem hwell hk, ?_⟩
  intro d hd
  have hout : Cache.outputEntry d ≠ Cache.inputEntry k := Ne.symm (Cache.inputEntry_ne_outputEntry k d)
  rw [MemoryStore.has_put_of_ne hout] at hd
  rw [MemoryStore.read_put_of_ne hout]
  by_cases hdk : d = k
  · subst hdk
    exact ⟨document, MemoryStore.read_put_self m _ hwell, h.read_outputEntry hkeys hmem hk hd⟩
  · have hin : Cache.inputEntry d ≠ Cache.inputEntry k := fun he => hdk (Cache.inputEntry_injective he)
    rw [MemoryStore.read_put_of_ne hin]
    exact h.answered d hd

/-- The answer to a document may be stored under its key, once a document is recorded there. -/
theorem put_output (h : SharedInvariant documents compile m) (hkeys : DecidedByKey documents compile)
    (hmem : document ∈ documents) (hk : Cache.key document = .ok k)
    (hhas : m.has (Cache.inputEntry k) = true) :
    SharedInvariant documents compile
      (Table.put m (Cache.outputEntry k) (compile document).json.render) := by
  refine ⟨h.recorded.put_output k _, ?_⟩
  intro d hd
  have hin : Cache.inputEntry d ≠ Cache.outputEntry k := Cache.inputEntry_ne_outputEntry d k
  rw [MemoryStore.read_put_of_ne hin]
  by_cases hdk : d = k
  · subst hdk
    obtain ⟨d', hread, hsame⟩ := h.exists_recorded hkeys hmem hk hhas
    refine ⟨d', hread, ?_⟩
    rw [hsame]
    exact MemoryStore.read_put_self m _ (compile document).wellFormed
  · have hout : Cache.outputEntry d ≠ Cache.outputEntry k := fun he => hdk (Cache.outputEntry_injective he)
    rw [MemoryStore.has_put_of_ne hout] at hd
    rw [MemoryStore.read_put_of_ne hout]
    exact h.answered d hd

end SharedInvariant

/-! ## Compilations are safe -/

section Compilations

variable {documents : Set Json} {compile : Json → Answer} {compiler : CompilerModel} {m : MemoryStore}
  {k version : Text} {document : Json}

/-- What is known of the store once a document is recorded and looked up. -/
def CacheState.Resolved (k : Text) (r : Except Failure CacheState) (m : MemoryStore) : Prop :=
  ∃ answered, r = .ok ⟨k, answered⟩ ∧ m.has (Cache.inputEntry k) = true ∧
    (answered = true → m.has (Cache.outputEntry k) = true)

theorem CacheState.safe_resolve (hkeys : DecidedByKey documents compile) (hmem : document ∈ documents)
    (hwell : WellFormed Text.PairFree document) (hk : Cache.key document = .ok k) :
    (resolve document).Safe (SharedInvariant documents compile) compiler (Resolved k) m := by
  rw [resolve, hk]
  intro m hinv _
  -- what is found stays there, in whatever steps it is looked for
  have hlook : ∀ m : MemoryStore, m.has (Cache.inputEntry k) = true →
      (Program.has (Cache.outputEntry k) fun answered =>
        .tell ⟨.debug, "cache_resolved", [("cache_key", .text k), ("has_output", .bool answered)]⟩
          (.done ⟨k, answered⟩)).Safe (SharedInvariant documents compile) compiler (Resolved k) m := by
    intro m hrecorded m₁ _ h₁ m₂ _ h₂ m₃ _ h₃
    exact ⟨_, rfl, h₃ _ (h₂ _ (h₁ _ hrecorded)), fun hanswered => h₃ _ (h₂ _ hanswered)⟩
  cases hrecorded : m.has (Cache.inputEntry k) with
  | true => exact hlook m hrecorded
  | false =>
    intro m' hinv' _
    exact ⟨hinv'.put_input hkeys hmem hwell hk, hlook _ (MemoryStore.has_put_self m' _ _)⟩

theorem CacheState.safe_answer (hkeys : DecidedByKey documents compile) (hmem : document ∈ documents)
    (hk : Cache.key document = .ok k) (hcompiler : ∀ d, compiler version d = .ok (compile d))
    {answered : Bool} (hrecorded : m.has (Cache.inputEntry k) = true)
    (hanswered : answered = true → m.has (Cache.outputEntry k) = true) :
    (answer ⟨k, answered⟩ version).Safe (SharedInvariant documents compile) compiler
      (fun r _ => r = .ok (compile document).json) m := by
  rw [answer]
  cases answered with
  | true =>
    rw [if_pos rfl]
    intro m₁ _ h₁ m₂ hinv h₂
    have hhas : m₂.has (Cache.outputEntry k) = true := h₂ _ (h₁ _ (hanswered rfl))
    exact ⟨(compile document).json, hinv.read_outputEntry hkeys hmem hk hhas, fun _ _ _ => rfl⟩
  | false =>
    rw [if_neg Bool.false_ne_true]
    intro m₁ hinv h₁
    obtain ⟨d, hread, hsame⟩ := hinv.exists_recorded hkeys hmem hk (h₁ _ hrecorded)
    refine ⟨d, hread, ?_⟩
    intro m₂ _ h₂
    refine ⟨compile document, by rw [hcompiler, hsame], ?_⟩
    intro m₃ hinv h₃
    exact ⟨hinv.put_output hkeys hmem hk (h₃ _ (h₂ _ (h₁ _ hrecorded))), fun _ _ _ _ _ _ => rfl⟩

/-- **A compilation is safe**, and its outcome is made of the answer of the compiler to its own document. -/
theorem CompileRequest.safe_compile {r : CompileRequest} (hkeys : DecidedByKey documents compile)
    (hmem : .object r.document ∈ documents) (hwell : WellFormed Text.PairFree (.object r.document))
    (hk : Cache.key (.object r.document) = .ok k) (hcompiler : ∀ d, compiler version d = .ok (compile d))
    (selection : Selection) (post : Postprocessing) :
    (r.compile version selection post).Safe (SharedInvariant documents compile) compiler
      (fun outcome _ => outcome = (Bundle.normalize (compile (.object r.document)).json (.text version)
        (.object r.document) selection post).outcome) m := by
  refine .andThen (CacheState.safe_resolve hkeys hmem hwell hk) ?_ ?_
  · rintro state m ⟨answered, hstate, hrecorded, hanswered⟩
    obtain rfl := Except.ok.inj hstate
    refine .andThen (CacheState.safe_answer hkeys hmem hk hcompiler hrecorded hanswered) ?_ ?_
    · rintro report m hreport
      obtain rfl := Except.ok.inj hreport
      exact .ofNarrated fun _ _ _ => rfl
    · rintro e m he
      exact nomatch he
  · rintro e m ⟨_, he, -⟩
    exact nomatch he

end Compilations

end SolidityBuild
