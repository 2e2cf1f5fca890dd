import SolidityBuild.Proofs.Build.Remembering
import SolidityBuild.Proofs.Build.Session
import SolidityBuild.Proofs.Cache.Key
import Mathlib.Logic.Relation

/-!
What a build expects of its store, in memory or in a folder: an entry that was written is found and read back,
and every entry stays as it is until it is written again. On a backend with such a store compilations, one after
the other, leave every entry that is found as it is; and once a compilation has built a bundle, its document and
the answer to it are found.
-/

set_option autoImplicit false

namespace SolidityBuild

open Json

/-! ## Stores -/

namespace Backend

variable {σ : Type}

/-- An entry is found in the store. -/
def Found (backend : Backend σ) (s : σ) (entry : Text) : Prop := ((backend.has entry).result s).2 = .ok true

/-- What reading an entry comes to. -/
def reading (backend : Backend σ) (s : σ) (entry : Text) : Except Failure Json :=
  ((backend.read entry).result s).2

/-- Looking and reading change nothing. -/
structure Looks (backend : Backend σ) : Prop where
  has_still : ∀ s entry, ((backend.has entry).result s).1 = s
  read_still : ∀ s entry, ((backend.read entry).result s).1 = s

/-- A state that keeps the entries of another one, on given terms: the terms hold, and every entry that was found
is found, and read as before. -/
structure Kept (backend : Backend σ) (terms : σ → Prop) (s s' : σ) : Prop where
  terms : terms s'
  still : ∀ entry, Cache.IsEntry entry → backend.Found s entry →
    backend.Found s' entry ∧ backend.reading s' entry = backend.reading s entry

/-- A backend whose store keeps what it is given, and whose compiler answers with what is read from a text, on
terms that it keeps itself. Looking and reading change nothing; an object that was written is found and read back;
writing leaves the other entries as they are, and an invocation leaves all of them so. -/
structure Stores (backend : Backend σ) (terms : σ → Prop) : Prop where
  has_still : ∀ s entry, ((backend.has entry).result s).1 = s
  read_still : ∀ s entry, ((backend.read entry).result s).1 = s
  write_terms : ∀ s entry value, terms s → Cache.IsEntry entry → terms ((backend.write entry value).result s).1
  write_own : ∀ s s' entry entries, terms s → Cache.IsEntry entry → WellFormed Text.PairFree (.object entries) →
    (backend.write entry (.object entries)).result s = (s', .ok ()) →
      backend.Found s' entry ∧ backend.reading s' entry = .ok (.object entries)
  write_other : ∀ s entry value entry', terms s → Cache.IsEntry entry → Cache.IsEntry entry' → entry' ≠ entry →
    backend.Found s entry' → backend.Found ((backend.write entry value).result s).1 entry' ∧
      backend.reading ((backend.write entry value).result s).1 entry' = backend.reading s entry'
  invoke_kept : ∀ s version request, terms s →
    backend.Kept terms s ((backend.invoke version request).result s).1
  invoke_answer : ∀ s s' version request report, terms s →
    (backend.invoke version request).result s = (s', .ok report) → ∃ answer : Answer, report = answer.json

variable {backend : Backend σ} {terms : σ → Prop}

theorem Kept.refl {s : σ} (h : terms s) : backend.Kept terms s s := ⟨h, fun _ _ hfound => ⟨hfound, rfl⟩⟩

theorem Kept.trans {s₁ s₂ s₃ : σ} (h : backend.Kept terms s₁ s₂) (h' : backend.Kept terms s₂ s₃) :
    backend.Kept terms s₁ s₃ := by
  refine ⟨h'.terms, fun entry hentry hfound => ?_⟩
  obtain ⟨hfound₂, hread₂⟩ := h.still entry hentry hfound
  obtain ⟨hfound₃, hread₃⟩ := h'.still entry hentry hfound₂
  exact ⟨hfound₃, hread₃.trans hread₂⟩

namespace Looks

variable {s s' : σ} {k : Text}

theorem result_has (h : backend.Looks) (s : σ) (entry : Text) :
    (backend.has entry).result s = (s, ((backend.has entry).result s).2) :=
  Prod.ext (h.has_still s entry) rfl

theorem result_read (h : backend.Looks) (s : σ) (entry : Text) :
    (backend.read entry).result s = (s, backend.reading s entry) := Prod.ext (h.read_still s entry) rfl

/-- Looking for the answer to a document changes nothing. -/
theorem look_spec (h : backend.Looks) {outcome : Except Failure CacheState}
    (hresult : (Program.has (Cache.outputEntry k) fun answered =>
      .tell ⟨.debug, "cache_resolved", [("cache_key", .text k), ("has_output", .bool answered)]⟩
        (.done ⟨k, answered⟩)).result backend s = (s', outcome)) :
    s' = s ∧ ∀ state, outcome = .ok state →
      state.key = k ∧ ((backend.has (Cache.outputEntry k)).result s).2 = .ok state.answered := by
  rw [Program.result_has, h.result_has] at hresult
  rcases follow_cases hresult with ⟨e, hhas, rfl⟩ | ⟨s₁, answered, hhas, hrest⟩
  · exact ⟨(Prod.ext_iff.mp hhas).1.symm, forall_of_error e⟩
  · obtain ⟨rfl, hanswered⟩ := Prod.ext_iff.mp hhas
    cases hrest
    refine ⟨rfl, ?_⟩
    rintro state hstate
    obtain rfl := Except.ok.inj hstate
    exact ⟨rfl, hanswered⟩

end Looks

namespace Stores

variable {s s' : σ} {k : Text}

theorem looks (h : backend.Stores terms) : backend.Looks := ⟨h.has_still, h.read_still⟩

/-- What is written where nothing was found leaves all that is found. -/
theorem kept_write (h : backend.Stores terms) (hterms : terms s) {entry : Text} (hentry : Cache.IsEntry entry)
    (hfresh : ¬ backend.Found s entry) (value : Json) :
    backend.Kept terms s ((backend.write entry value).result s).1 := by
  refine ⟨h.write_terms s entry value hterms hentry, fun entry' hentry' hfound => ?_⟩
  have hne : entry' ≠ entry := by
    rintro rfl
    exact hfresh hfound
  exact h.write_other s entry value entry' hterms hentry hentry' hne hfound

/-- A store in memory keeps what it is given. -/
theorem of_remembers {memory : σ → MemoryStore} {remember : σ → MemoryStore → σ}
    (h : backend.Remembers memory remember) (hremember : ∀ s m, terms s → terms (remember s m))
    (hinvoke : ∀ s version request, terms s → terms ((backend.invoke version request).result s).1)
    (hmemory : ∀ s version request, memory ((backend.invoke version request).result s).1 = memory s)
    (hanswer : ∀ s s' version request report, terms s →
      (backend.invoke version request).result s = (s', .ok report) → ∃ answer : Answer, report = answer.json) :
    backend.Stores terms where
  has_still s entry := by rw [h.has]
  read_still s entry := by rw [h.read]
  write_terms s entry value hterms _ := by
    rw [h.write]
    exact hremember s _ hterms
  write_own s s' entry entries _ _ hwell hwrite := by
    rw [h.write] at hwrite
    obtain rfl := (Prod.ext_iff.mp hwrite).1
    refine ⟨?_, ?_⟩
    · rw [Found, h.has, h.memory_remember, MemoryStore.has_put_self]
    · rw [reading, h.read, h.memory_remember]
      exact MemoryStore.read_put_self _ _ hwell
  write_other s entry value entry' _ _ _ hne hfound := by
    rw [Found, h.has] at hfound
    rw [Found, reading, reading, h.write, h.has, h.read, h.read, h.memory_remember,
      MemoryStore.has_put_of_ne hne]
    exact ⟨hfound, MemoryStore.read_put_of_ne hne _ _⟩
  invoke_kept s version request hterms := by
    refine ⟨hinvoke s version request hterms, fun entry _ hfound => ?_⟩
    rw [Found, h.has] at hfound
    rw [Found, reading, reading, h.has, h.read, h.read, hmemory]
    exact ⟨hfound, rfl⟩
  invoke_answer := hanswer

/-! ## One compilation -/

/-- Recording a document leaves what is found; the document is recorded then, and it is known whether it is
answered. -/
theorem resolve_spec (h : backend.Stores terms) (hterms : terms s) {entries : Table Json}
    (hk : Cache.key (.object entries) = .ok k) {outcome : Except Failure CacheState}
    (hresult : (CacheState.resolve (.object entries)).result backend s = (s', outcome)) :
    backend.Kept terms s s' ∧ ∀ state, outcome = .ok state → state.key = k ∧
      ((backend.has (Cache.outputEntry k)).result s').2 = .ok state.answered ∧
      (WellFormed Text.PairFree (.object entries) → backend.Found s' (Cache.inputEntry k)) := by
  rw [CacheState.resolve, hk] at hresult
  dsimp only at hresult
  rw [Program.result_has, h.looks.result_has] at hresult
  rcases follow_cases hresult with ⟨e, hhas, rfl⟩ | ⟨s₁, recorded, hhas, hrest⟩
  · obtain ⟨rfl, -⟩ := Prod.ext_iff.mp hhas
    exact ⟨.refl hterms, forall_of_error e⟩
  obtain ⟨rfl, hrecorded⟩ := Prod.ext_iff.mp hhas
  cases recorded with
  | true =>
    rw [if_pos rfl] at hrest
    obtain ⟨rfl, hstate⟩ := h.looks.look_spec hrest
    refine ⟨.refl hterms, fun state hok => ?_⟩
    obtain ⟨hkey, hanswered⟩ := hstate state hok
    exact ⟨hkey, hanswered, fun _ => hrecorded⟩
  | false =>
    rw [if_neg Bool.false_ne_true, Program.result_write] at hrest
    have hfresh : ¬ backend.Found s (Cache.inputEntry k) := by
      intro hfound
      cases Except.ok.inj (hfound.symm.trans hrecorded)
    have hkept := h.kept_write hterms (.input hk) hfresh (.object entries)
    rcases follow_cases hrest with ⟨e, hwrite, rfl⟩ | ⟨s₁, ⟨⟩, hwrite, hlook⟩
    · rw [hwrite] at hkept
      exact ⟨hkept, forall_of_error e⟩
    · obtain ⟨rfl, hstate⟩ := h.looks.look_spec hlook
      rw [hwrite] at hkept
      refine ⟨hkept, fun state hok => ?_⟩
      obtain ⟨hkey, hanswered⟩ := hstate state hok
      exact ⟨hkey, hanswered, fun hwell => (h.write_own s s' _ entries hterms (.input hk) hwell hwrite).1⟩

/-- Getting the answer to a document leaves what is found, and the answer is in the store then. -/
theorem answer_spec (h : backend.Stores terms) (hterms : terms s) {version : Text} {state : CacheState}
    (hentry : Cache.IsEntry (Cache.outputEntry state.key))
    (hanswered : ((backend.has (Cache.outputEntry state.key)).result s).2 = .ok state.answered)
    {outcome : Except Failure Json} (hresult : (state.answer version).result backend s = (s', outcome)) :
    backend.Kept terms s s' ∧ ∀ report, outcome = .ok report →
      backend.Found s' (Cache.outputEntry state.key) ∧
        backend.reading s' (Cache.outputEntry state.key) = .ok report := by
  rw [CacheState.answer] at hresult
  cases hstate : state.answered with
  | true =>
    rw [hstate] at hresult hanswered
    rw [if_pos rfl, Program.result_tell, Program.result_read, h.looks.result_read] at hresult
    rcases follow_cases hresult with ⟨e, hread, rfl⟩ | ⟨s₁, report, hread, hrest⟩
    · obtain ⟨rfl, -⟩ := Prod.ext_iff.mp hread
      exact ⟨.refl hterms, forall_of_error e⟩
    · obtain ⟨rfl, hreading⟩ := Prod.ext_iff.mp hread
      cases hrest
      refine ⟨.refl hterms, fun report' hok => ?_⟩
      obtain rfl := Except.ok.inj hok
      exact ⟨hanswered, hreading⟩
  | false =>
    rw [hstate] at hresult hanswered
    rw [if_neg Bool.false_ne_true, Program.result_read, h.looks.result_read] at hresult
    rcases follow_cases hresult with ⟨e, hread, rfl⟩ | ⟨s₁, request, hread, hrest⟩
    · obtain ⟨rfl, -⟩ := Prod.ext_iff.mp hread
      exact ⟨.refl hterms, forall_of_error e⟩
    obtain ⟨rfl, -⟩ := Prod.ext_iff.mp hread
    rw [Program.result_invoke] at hrest
    have hinvoke := h.invoke_kept s version request hterms
    rcases follow_cases hrest with ⟨e, hanswer, rfl⟩ | ⟨s₁, report, hanswer, hstore⟩
    · rw [hanswer] at hinvoke
      exact ⟨hinvoke, forall_of_error e⟩
    rw [hanswer] at hinvoke
    rw [Program.result_write] at hstore
    -- the key is not answered before, so what is found before is not what is written
    have hkept : backend.Kept terms s ((backend.write (Cache.outputEntry state.key) report).result s₁).1 := by
      refine ⟨h.write_terms s₁ _ report hinvoke.terms hentry, fun entry hentry' hfound => ?_⟩
      have hne : entry ≠ Cache.outputEntry state.key := by
        rintro rfl
        cases Except.ok.inj (hfound.symm.trans hanswered)
      obtain ⟨hfound₁, hreading₁⟩ := hinvoke.still entry hentry' hfound
      obtain ⟨hfound₂, hreading₂⟩ := h.write_other s₁ _ report entry hinvoke.terms hentry hentry' hne hfound₁
      exact ⟨hfound₂, hreading₂.trans hreading₁⟩
    rcases follow_cases hstore with ⟨e, hwrite, rfl⟩ | ⟨s₂, ⟨⟩, hwrite, hrest⟩
    · rw [hwrite] at hkept
      exact ⟨hkept, forall_of_error e⟩
    · rw [hwrite] at hkept
      cases hrest
      refine ⟨hkept, fun report' hok => ?_⟩
      obtain rfl := Except.ok.inj hok
      obtain ⟨answer, rfl⟩ := h.invoke_answer _ _ _ _ _ hterms hanswer
      exact h.write_own s₁ _ _ answer.entries hinvoke.terms hentry answer.wellFormed hwrite

/-- A compilation leaves what is found; if it builds a bundle, its document and the answer to it are in the
store then, and the bundle is made of the answer. -/
theorem compile_spec (h : backend.Stores terms) (hterms : terms s) {r : CompileRequest} {version : Text}
    {selection : Selection} {post : Postprocessing} {outcome : Except Failure Bundle}
    (hresult : (r.compile version selection post).result backend s = (s', outcome)) :
    backend.Kept terms s s' ∧ ∀ bundle, outcome = .ok bundle → ∃ k report,
      Cache.key (.object r.document) = .ok k ∧
        (WellFormed Text.PairFree (.object r.document) → backend.Found s' (Cache.inputEntry k)) ∧
        backend.Found s' (Cache.outputEntry k) ∧ backend.reading s' (Cache.outputEntry k) = .ok report ∧
        (Bundle.normalize report (.text version) (.object r.document) selection post).outcome = .ok bundle := by
  rw [CompileRequest.result_compile] at hresult
  cases hk : Cache.key (.object r.document) with
  | error fault =>
    rw [CacheState.resolve, hk] at hresult
    cases hresult
    exact ⟨.refl hterms, forall_of_error _⟩
  | ok k =>
    rcases follow_cases hresult with ⟨e, hresolve, rfl⟩ | ⟨s₁, state, hresolve, hrest⟩
    · exact ⟨(h.resolve_spec hterms hk hresolve).1, forall_of_error e⟩
    obtain ⟨hkept, hstate⟩ := h.resolve_spec hterms hk hresolve
    obtain ⟨rfl, hanswered, hrecorded⟩ := hstate state rfl
    rcases follow_cases hrest with ⟨e, hanswer, rfl⟩ | ⟨s₂, report, hanswer, hnormalize⟩
    · exact ⟨hkept.trans (h.answer_spec hkept.terms (.output hk) hanswered hanswer).1, forall_of_error e⟩
    obtain ⟨hkept', hreport⟩ := h.answer_spec hkept.terms (.output hk) hanswered hanswer
    cases hnormalize
    refine ⟨hkept.trans hkept', fun bundle hok => ?_⟩
    obtain ⟨hfound, hreading⟩ := hreport report rfl
    exact ⟨state.key, report, rfl, fun hwell => (hkept'.still _ (.input hk) (hrecorded hwell)).1, hfound, hreading,
      hok⟩

end Stores

/-- States that compilations lead to, one after the other, whatever is compiled and whatever it comes to. -/
def Leads (backend : Backend σ) : σ → σ → Prop :=
  Relation.ReflTransGen fun s s' => ∃ (r : CompileRequest) (version : Text) (selection : Selection)
    (post : Postprocessing), ((r.compile version selection post).result backend s).1 = s'

/-- The induction is on the compilations, in their order. -/
theorem Stores.kept_leads (h : backend.Stores terms) {s s' : σ} (hterms : terms s)
    (hleads : backend.Leads s s') : backend.Kept terms s s' := by
  induction hleads with
  | refl => exact .refl hterms
  | tail _ hstep ih =>
    obtain ⟨r, version, selection, post, rfl⟩ := hstep
    exact ih.trans (h.compile_spec ih.terms rfl).1

end Backend

end SolidityBuild
