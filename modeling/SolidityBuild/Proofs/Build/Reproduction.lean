import SolidityBuild.Proofs.Build.Courses
import SolidityBuild.Proofs.Build.Outcomes
import SolidityBuild.Proofs.Document.Rereading

/-!
A bundle is reproduced from the request in its own provenance. This holds on every backend whose store keeps
what it is given, as the stores of sessions and of ordinary builds do: the request is accepted, the document that
is compiled for it is the same to the letter, so the answer is found under the same key, and the compiler is not
asked.
-/

set_option autoImplicit false

namespace SolidityBuild

open Json

/-! ## Reproduced bundles -/

/-- A document that has a key holds no surrogates. -/
theorem CompileRequest.wellFormed_document_of_key {source : LoadedObject} {r : CompileRequest} {k : Text}
    (h : CompileRequest.ofJson source.json = .ok r) (hk : Cache.key (.object r.document) = .ok k) :
    WellFormed Text.PairFree (.object r.document) := by
  have hany : WellFormed (fun _ => True) (.object r.document) :=
    wellFormed_document (fun _ => trivial) (wellFormed_toJson (fun _ => trivial) source.wellFormed h)
  have hscalar : ∀ t ∈ (Json.object r.document).texts, t.Scalar := by
    by_contra hnot
    obtain ⟨fault, hfault⟩ := (Cache.key_fails_iff hany).mpr hnot
    exact nomatch hk.symm.trans hfault
  exact (hany.of_texts hscalar).mono fun _ => Text.Scalar.pairFree

/-- The request in the document of a bundle is the document that was compiled. -/
theorem Bundle.request_toJson {r : CompileRequest} {report : Json} {version : Text} {selection : Selection}
    {post : Postprocessing} {bundle : Bundle}
    (h : (normalize report (.text version) (.object r.document) selection post).outcome = .ok bundle) :
    (bundle.toJson.get? "compiler_args").bind (fun args => args.get? "compiler_json") =
      some (.object r.document) := by
  have hargs : bundle.toJson.get? "compiler_args" = some bundle.provenance.toJson := rfl
  have hrequest : bundle.provenance.toJson.get? "compiler_json" =
      some (Json.object bundle.provenance.request).finiteOnly := by
    rw [Provenance.toJson, finiteOnly_object]
    rfl
  rw [hargs, Option.bind_some, hrequest, provenance_eq r.sources_document h, r.finite_document]

/-- **A bundle is reproduced from its own provenance.** Whenever a compilation builds a bundle, the request in
the document of the bundle is accepted, and the document that is compiled for it has the same text and the same
key; and at any time afterwards, compiling it for the same version, selection and postprocessing changes nothing
and builds the same bundle, whatever the compiler would do if it were asked. -/
theorem CompileRequest.rebuilds_from_provenance {σ : Type} {backend : Backend σ} {terms : σ → Prop}
    (hstores : backend.Stores terms) {source : LoadedObject} {r : CompileRequest}
    (hdecoded : CompileRequest.ofJson source.json = .ok r) {version : Text} {selection : Selection}
    {post : Postprocessing} {s s' : σ} (hterms : terms s) {bundle : Bundle}
    (hbuilt : (r.compile version selection post).result backend s = (s', .ok bundle)) :
    ∃ (document : Table Json) (again : CompileRequest),
      (bundle.toJson.get? "compiler_args").bind (fun args => args.get? "compiler_json") =
        some (.object document) ∧
      CompileRequest.ofJson (.object document) = .ok again ∧
      (Json.object again.document).render = (Json.object r.document).render ∧
      Cache.key (.object again.document) = Cache.key (.object r.document) ∧
      ∀ later, backend.Leads s' later → ∀ invoke,
        (again.compile version selection post).result { backend with invoke } later = (later, .ok bundle) := by
  obtain ⟨hkept, hspec⟩ := hstores.compile_spec hterms hbuilt
  obtain ⟨k, report, hk, hrecorded, hanswered, hread, hbundle⟩ := hspec bundle rfl
  have hwell := wellFormed_document_of_key hdecoded hk
  refine ⟨r.document, r.compiled, Bundle.request_toJson hbundle,
    ofJson_document (proper_of_ofJson hdecoded), ?_, ?_, ?_⟩
  · rw [document_compiled]
  · rw [document_compiled]
  · intro later hlater invoke
    have hstill := hstores.kept_leads hkept.terms hlater
    have hk' : Cache.key (.object r.compiled.document) = .ok k := by rw [document_compiled, hk]
    obtain ⟨hrecorded', -⟩ := hstill.still _ (.input hk) (hrecorded hwell)
    obtain ⟨hanswered', hread'⟩ := hstill.still _ (.output hk) hanswered
    rw [result_compile_of_held hstores.looks hrecorded' hanswered' (hread'.trans hread) hk' invoke,
      document_compiled, hbundle]

/-! ## Sessions -/

/-- The backend of sessions keeps what it is given, whatever its compiler does. -/
theorem Session.stores (compiler : CompilerModel) : (Session.backend compiler).Stores fun _ => True := by
  refine .of_remembers (Session.remembers compiler) (fun _ _ _ => trivial) (fun _ _ _ _ => trivial)
    (fun _ _ _ => rfl) ?_
  intro s s' version request report _ hinvoke
  rw [Session.result_invoke] at hinvoke
  cases houtcome : compiler version request with
  | error failure =>
    rw [houtcome] at hinvoke
    exact nomatch (Prod.ext_iff.mp hinvoke).2
  | ok answer =>
    rw [houtcome] at hinvoke
    exact ⟨answer, (Except.ok.inj (Prod.ext_iff.mp hinvoke).2).symm⟩

/-- The bundle of a call with two settings is reproduced. -/
theorem CompileRequest.switches_rebuild_from_provenance :
    let c := switchesCall "viaIR" "debug" (by decide) "0.8.20"
    ∃ (s' : Session) (bundle : Bundle),
      (c.submission.request.compile c.version c.selection c.post).result (Session.backend c.compiler)
        ⟨bareWorkshop, []⟩ = (s', .ok bundle) ∧
      ∃ (document : Table Json) (again : CompileRequest),
        (bundle.toJson.get? "compiler_args").bind (fun args => args.get? "compiler_json") =
          some (.object document) ∧
        CompileRequest.ofJson (.object document) = .ok again ∧
        (Json.object again.document).render = (Json.object c.submission.request.document).render ∧
        Cache.key (.object again.document) = Cache.key (.object c.submission.request.document) ∧
        ∀ later, (Session.backend c.compiler).Leads s' later → ∀ invoke,
          (again.compile c.version c.selection c.post).result { Session.backend c.compiler with invoke } later =
            (later, .ok bundle) := by
  intro c
  obtain ⟨k, hk⟩ := c.exists_key
  have houtcome : _ = c.bundle emptyAnswer.json :=
    (Call.run_emptied (fun _ => emptyAnswer) hk (fun _ => rfl) bareWorkshop).2
  obtain ⟨bundle, hbundle⟩ : ∃ bundle, c.bundle emptyAnswer.json = .ok bundle := ⟨_, rfl⟩
  have hbuilt : (c.submission.request.compile c.version c.selection c.post).result
      (Session.backend c.compiler) ⟨bareWorkshop, []⟩ = (_, .ok bundle) :=
    Prod.ext rfl (houtcome.trans hbundle)
  exact ⟨_, bundle, hbuilt, CompileRequest.rebuilds_from_provenance (Session.stores c.compiler)
    c.submission.decoded trivial hbuilt⟩

end SolidityBuild
