import SolidityBuild.Proofs.Build.Stores

/-!
How a compilation that builds a bundle goes, on a backend whose store is not changed by looking and reading. Its
document was recorded or is written; the answer was held and is read, or the compiler is asked and what it answers
is written. If both were there, nothing is done but to read the answer, and the compiler is not asked.
-/

set_option autoImplicit false

namespace SolidityBuild

namespace Backend

variable {σ : Type} {backend : Backend σ} {s s' s'' : σ} {k version : Text} {document report : Json}

/-- An entry is looked for and not there. -/
def Missing (backend : Backend σ) (s : σ) (entry : Text) : Prop := ((backend.has entry).result s).2 = .ok false

/-- How a document comes to be recorded. -/
inductive Recording (backend : Backend σ) (k : Text) (document : Json) (s : σ) : σ → Prop where
  | found (there : backend.Found s (Cache.inputEntry k)) : Recording backend k document s s
  | written {s' : σ} (missing : backend.Missing s (Cache.inputEntry k))
      (write : (backend.write (Cache.inputEntry k) document).result s = (s', .ok ())) :
      Recording backend k document s s'

/-- How a document that is recorded comes to be answered. -/
inductive Answering (backend : Backend σ) (k version : Text) (report : Json) (s : σ) : σ → Prop where
  | held (there : backend.Found s (Cache.outputEntry k))
      (read : backend.reading s (Cache.outputEntry k) = .ok report) : Answering backend k version report s s
  | asked {request : Json} {s' s'' : σ} (missing : backend.Missing s (Cache.outputEntry k))
      (recorded : backend.reading s (Cache.inputEntry k) = .ok request)
      (invoke : (backend.invoke version request).result s = (s', .ok report))
      (write : (backend.write (Cache.outputEntry k) report).result s' = (s'', .ok ())) :
      Answering backend k version report s s''

namespace Looks

theorem resolve_ok (h : backend.Looks) (hk : Cache.key document = .ok k) {state : CacheState}
    (hresult : (CacheState.resolve document).result backend s = (s', .ok state)) :
    backend.Recording k document s s' ∧ state.key = k ∧
      ((backend.has (Cache.outputEntry k)).result s').2 = .ok state.answered := by
  rw [CacheState.resolve, hk] at hresult
  dsimp only at hresult
  rw [Program.result_has, h.result_has] at hresult
  obtain ⟨recorded, hrecorded, hrest⟩ := follow_outcome_eq_ok_iff.mp hresult
  cases recorded with
  | true =>
    rw [if_pos rfl] at hrest
    obtain ⟨rfl, hstate⟩ := h.look_spec hrest
    exact ⟨.found hrecorded, hstate state rfl⟩
  | false =>
    rw [if_neg Bool.false_ne_true, Program.result_write] at hrest
    obtain ⟨s₁, ⟨⟩, hwrite, hlook⟩ := follow_eq_ok_iff.mp hrest
    obtain ⟨rfl, hstate⟩ := h.look_spec hlook
    exact ⟨.written hrecorded hwrite, hstate state rfl⟩

theorem answer_ok (h : backend.Looks) {state : CacheState}
    (hanswered : ((backend.has (Cache.outputEntry state.key)).result s).2 = .ok state.answered)
    (hresult : (state.answer version).result backend s = (s', .ok report)) :
    backend.Answering state.key version report s s' := by
  rw [CacheState.answer] at hresult
  cases hstate : state.answered with
  | true =>
    rw [hstate] at hresult hanswered
    rw [if_pos rfl, Program.result_tell, Program.result_read, h.result_read] at hresult
    obtain ⟨report', hreading, hrest⟩ := follow_outcome_eq_ok_iff.mp hresult
    cases hrest
    exact .held hanswered hreading
  | false =>
    rw [hstate] at hresult hanswered
    rw [if_neg Bool.false_ne_true, Program.result_read, h.result_read] at hresult
    obtain ⟨request, hreading, hrest⟩ := follow_outcome_eq_ok_iff.mp hresult
    rw [Program.result_invoke] at hrest
    obtain ⟨s₁, report', hinvoke, hstore⟩ := follow_eq_ok_iff.mp hrest
    rw [Program.result_write] at hstore
    obtain ⟨s₂, ⟨⟩, hwrite, hdone⟩ := follow_eq_ok_iff.mp hstore
    cases hdone
    exact .asked hanswered hreading hinvoke hwrite

/-- **A compilation that builds a bundle** records its document, gets an answer to it, and makes the bundle of the
answer. -/
theorem compile_ok (h : backend.Looks) {r : CompileRequest} {selection : Selection} {post : Postprocessing}
    {bundle : Bundle} (hresult : (r.compile version selection post).result backend s = (s', .ok bundle)) :
    ∃ k s₁ report, Cache.key (.object r.document) = .ok k ∧ backend.Recording k (.object r.document) s s₁ ∧
      backend.Answering k version report s₁ s' ∧
      (Bundle.normalize report (.text version) (.object r.document) selection post).outcome = .ok bundle := by
  rw [CompileRequest.result_compile] at hresult
  obtain ⟨s₁, state, hresolve, hrest⟩ := follow_eq_ok_iff.mp hresult
  cases hk : Cache.key (.object r.document) with
  | error fault =>
    rw [CacheState.resolve, hk] at hresolve
    cases congrArg Prod.snd hresolve
  | ok k =>
    obtain ⟨hrecording, rfl, hanswered⟩ := h.resolve_ok hk hresolve
    obtain ⟨s₂, report, hanswer, hnormalize⟩ := follow_eq_ok_iff.mp hrest
    obtain ⟨rfl, hbundle⟩ := Prod.ext_iff.mp hnormalize
    exact ⟨_, s₁, report, rfl, hrecording, h.answer_ok hanswered hanswer, hbundle⟩

end Looks

end Backend

/-- Where the document of a request is recorded and answered, nothing is done but to read the answer, and the
compiler is not asked, whatever it would do. -/
theorem CompileRequest.result_compile_of_held {σ : Type} {backend : Backend σ} (h : backend.Looks) {s : σ}
    {k : Text} {report : Json} (hrecorded : backend.Found s (Cache.inputEntry k))
    (hanswered : backend.Found s (Cache.outputEntry k))
    (hread : backend.reading s (Cache.outputEntry k) = .ok report) {r : CompileRequest}
    (hk : Cache.key (.object r.document) = .ok k) (invoke : Text → Json → Task σ Json) (version : Text)
    (selection : Selection) (post : Postprocessing) :
    (r.compile version selection post).result { backend with invoke } s =
      (s, (Bundle.normalize report (.text version) (.object r.document) selection post).outcome) := by
  have hin : (({ backend with invoke } : Backend σ).has (Cache.inputEntry k)).result s = (s, .ok true) :=
    (h.result_has s _).trans (congrArg (Prod.mk s) hrecorded)
  have hout : (({ backend with invoke } : Backend σ).has (Cache.outputEntry k)).result s = (s, .ok true) :=
    (h.result_has s _).trans (congrArg (Prod.mk s) hanswered)
  have hreport : (({ backend with invoke } : Backend σ).read (Cache.outputEntry k)).result s = (s, .ok report) :=
    (h.result_read s _).trans (congrArg (Prod.mk s) hread)
  have hresolve : (CacheState.resolve (.object r.document)).result { backend with invoke } s =
      (s, .ok ⟨k, true⟩) := by
    rw [CacheState.resolve, hk]
    dsimp only
    rw [Program.result_has, hin, follow_ok, if_pos rfl, Program.result_has, hout, follow_ok]
    exact Program.result_tell _ _ _ s
  have hanswer : (CacheState.answer ⟨k, true⟩ version).result { backend with invoke } s = (s, .ok report) := by
    rw [CacheState.answer, if_pos rfl, Program.result_tell, Program.result_read, hreport]
    rfl
  rw [CompileRequest.result_compile, hresolve, follow_ok, hanswer, follow_ok]

end SolidityBuild
