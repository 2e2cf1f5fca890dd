import SolidityBuild.Proofs.Compilation.Normalized
import SolidityBuild.Proofs.Json.Surrogates
import SolidityBuild.Proofs.Schema.Giving

/-!
The documents of bundles are well-formed. A well-formed report is decoded to parts that are well-formed, merging puts
in values of a well-formed request, and every place of a bundle is filled from these; so what is printed of a bundle
is read back. The texts may be of any kind that the names of fields and the single code points belong to, such as
texts without a surrogate pair.
-/

set_option autoImplicit false

namespace SolidityBuild

open Schema Json

/-- A kind of texts to which what is written by itself belongs: names of fields, and single code points. -/
structure Text.Usual (p : Text → Prop) : Prop where
  name : ∀ s : String, p (ofString s)
  point : ∀ c : CodePoint, p [c]

theorem Text.Usual.nil {p : Text → Prop} (h : Text.Usual p) : p [] := h.name ""

theorem Text.usual_pairFree : Text.Usual Text.PairFree :=
  ⟨fun s => (scalar_ofString s).pairFree, fun c => List.isChain_singleton c⟩

variable {p : Text → Prop}

theorem Json.wellFormed_ofText? {t : Option Text} (h : ∀ s, t = some s → p s) : WellFormed p (Json.ofText? t) := by
  cases t with
  | none => exact .null
  | some s => exact .text (h s rfl)

theorem Json.wellFormed_idJson {id : Option Int} (h : ∀ n, id = some n → WellFormed p (.int n)) :
    WellFormed p (SourceReport.idJson id) := by
  cases id with
  | none => exact .null
  | some n => exact h n rfl

theorem Json.wellFormed_texts {ts : List Text} (h : ∀ t ∈ ts, p t) : WellFormed p (.list (ts.map .text)) := by
  refine .list fun x hx => ?_
  obtain ⟨t, ht, rfl⟩ := List.mem_map.mp hx
  exact .text (h t ht)

theorem Json.wellFormed_ofAbi {abi : List (Table Json)} (h : ∀ t ∈ abi, WellFormed p (.object t)) :
    WellFormed p (Json.ofAbi abi) := by
  refine .list fun x hx => ?_
  obtain ⟨t, ht, rfl⟩ := List.mem_map.mp hx
  exact h t ht

/-! ## Reports -/

/-- Codes and maps of a well-formed report, and its interface description. -/
structure ContractReport.Holds (p : Text → Prop) (c : ContractReport) : Prop where
  creation : p c.machine.creation.code
  runtime : p c.machine.runtime.code
  sourceMap : ∀ t, c.machine.runtime.sourceMap = some t → p t
  abi : ∀ t ∈ c.abi, WellFormed p (.object t)

/-- What a well-formed report has for a source. -/
structure SourceReport.Holds (p : Text → Prop) (s : SourceReport) : Prop where
  id : ∀ n, s.id = some n → WellFormed p (.int n)
  ast : ∀ t, s.ast = some t → WellFormed p (.object t)
  source : ∀ t, s.source = some t → p t

/-- What a bundle takes from a well-formed report. -/
structure CompileReport.Holds (p : Text → Prop) (r : CompileReport) : Prop where
  contracts : r.contracts.Holds p (Table.Holds p (ContractReport.Holds p))
  sources : r.sources.Holds p (SourceReport.Holds p)

theorem CreationCode.gives (hp : p []) : Decoder.Gives p CreationCode.decoder fun c => p c.code := by
  intro j c hj h
  obtain ⟨t, rfl, hread⟩ := model_eq_value h
  obtain ⟨code, hcode, rfl⟩ := Decoded.map_eq_value hread
  exact Field.gives Decoder.gives_text hj hp hcode

theorem RuntimeCode.gives (hp : p []) :
    Decoder.Gives p RuntimeCode.decoder fun c => p c.code ∧ ∀ t, c.sourceMap = some t → p t := by
  intro j c hj h
  obtain ⟨t, rfl, hread⟩ := model_eq_value h
  obtain ⟨g, sourceMap, hg, hsourceMap, rfl⟩ := Decoded.seq_eq_value hread
  obtain ⟨code, hcode, rfl⟩ := Decoded.map_eq_value hg
  exact ⟨Field.gives Decoder.gives_text hj hp hcode,
    Field.gives Decoder.gives_text.nullable hj forall_of_none hsourceMap⟩

theorem MachineCode.gives (hp : p []) : Decoder.Gives p MachineCode.decoder fun m =>
    p m.creation.code ∧ p m.runtime.code ∧ ∀ t, m.runtime.sourceMap = some t → p t := by
  intro j m hj h
  obtain ⟨t, rfl, hread⟩ := model_eq_value h
  obtain ⟨g, runtime, hg, hruntime, rfl⟩ := Decoded.seq_eq_value hread
  obtain ⟨creation, hcreation, rfl⟩ := Decoded.map_eq_value hg
  have hnone : p RuntimeCode.empty.code ∧ ∀ t, RuntimeCode.empty.sourceMap = some t → p t := ⟨hp, forall_of_none⟩
  have hcode := Field.gives (CreationCode.gives hp) hj (by exact hp) hcreation
  have hcodes := Field.gives (RuntimeCode.gives hp) hj hnone hruntime
  exact ⟨hcode, hcodes⟩

theorem ContractReport.gives (hp : p []) : Decoder.Gives p ContractReport.decoder (ContractReport.Holds p) := by
  intro j c hj h
  obtain ⟨t, rfl, hread⟩ := model_eq_value h
  obtain ⟨g, machine, hg, hmachine, rfl⟩ := Decoded.seq_eq_value hread
  obtain ⟨abi, habi, rfl⟩ := Decoded.map_eq_value hg
  -- a contract without machine code has empty codes and no map
  obtain ⟨hcreation, hruntime, hmap⟩ :=
    Field.gives (MachineCode.gives hp) hj ⟨hp, hp, forall_of_none⟩ hmachine
  exact ⟨hcreation, hruntime, hmap, Field.gives Decoder.gives_mapping.list hj (List.forall_mem_nil _) habi⟩

theorem SourceReport.gives : Decoder.Gives p SourceReport.decoder (SourceReport.Holds p) := by
  intro j s hj h
  obtain ⟨t, rfl, hread⟩ := model_eq_value h
  obtain ⟨g, source, hg, hsource, rfl⟩ := Decoded.seq_eq_value hread
  obtain ⟨g', ast, hg', hast, rfl⟩ := Decoded.seq_eq_value hg
  obtain ⟨id, hid, rfl⟩ := Decoded.map_eq_value hg'
  exact ⟨Field.gives Decoder.gives_integer.nullable hj forall_of_none hid,
    Field.gives Decoder.gives_mapping.nullable hj forall_of_none hast,
    Field.gives Decoder.gives_text.nullable hj forall_of_none hsource⟩

theorem CompileReport.gives (hp : p []) : Decoder.Gives p CompileReport.decoder (CompileReport.Holds p) := by
  intro j r hj h
  obtain ⟨t, rfl, hread⟩ := model_eq_value h
  obtain ⟨g, sources, hg, hsources, rfl⟩ := Decoded.seq_eq_value hread
  obtain ⟨g', contracts, hg', hcontracts, rfl⟩ := Decoded.seq_eq_value hg
  obtain ⟨diagnostics, -, rfl⟩ := Decoded.map_eq_value hg'
  exact ⟨Field.gives (ContractReport.gives hp).table.table hj .nil hcontracts,
    Field.gives SourceReport.gives.table hj .nil hsources⟩

/-! ## Merged sources -/

/-- A source with a well-formed content. -/
structure MergedSource.Holds (p : Text → Prop) (s : MergedSource) : Prop where
  id : ∀ n, s.id = some n → WellFormed p (.int n)
  ast : ∀ t, s.ast = some t → WellFormed p (.object t)
  content : WellFormed p s.content

namespace MergedReport

variable {sources : Table MergedSource} {request : Table Json}

theorem holds_ofReport {s : SourceReport} (h : s.Holds p) : (MergedSource.ofReport s).Holds p :=
  ⟨h.id, h.ast, wellFormed_ofText? h.source⟩

theorem wellFormed_contentOf? {entry content : Json} (hentry : WellFormed p entry)
    (h : contentOf? entry = some content) : WellFormed p content := by
  cases entry with
  | object t =>
    rw [contentOf?, get?_object] at h
    split at h
    · cases h
    · cases h
    · next hget =>
      cases h
      exact hentry.of_get? hget
  | _ => cases h

/-- Merging well-formed contents in keeps the sources well-formed. -/
theorem holds_putContents {entries : Table Json} (hentries : WellFormed p (.object entries))
    (h : sources.Holds p (MergedSource.Holds p)) : (putContents sources entries).Holds p (MergedSource.Holds p) := by
  induction entries generalizing sources with
  | nil => exact h
  | cons e rest ih =>
    obtain ⟨path, entry⟩ := e
    rw [putContents_cons]
    refine ih (hentries.of_sublist (List.sublist_cons_self _ _)) ?_
    rw [putEntry]
    split
    · exact h
    · next content hcontent =>
      have hwell := wellFormed_contentOf? (hentries.value List.mem_cons_self) hcontent
      refine h.put (hentries.key List.mem_cons_self) ?_
      -- what the report has for the path stays, but for the content
      cases hget : sources.get? path with
      | none => exact ⟨forall_of_none, forall_of_none, hwell⟩
      | some s => exact ⟨(h.get? hget).id, (h.get? hget).ast, hwell⟩

theorem wellFormed_field (h : WellFormed p (.object request)) (key : Text) : WellFormed p (field request key) := by
  rw [field]
  cases hget : request.get? key with
  | none => exact .null
  | some x => exact h.of_get? hget

theorem wellFormed_requestSources (h : WellFormed p (.object request)) {entries : Table Json}
    (hentries : requestSources request = .ok entries) : WellFormed p (.object entries) := by
  have hfield := wellFormed_field h "sources"
  rw [requestSources] at hentries
  split at hentries
  · next heq =>
    cases hentries
    exact heq ▸ hfield
  · split_ifs at hentries
    cases hentries
    exact .empty

theorem holds_merge {r : CompileReport} {m : MergedReport} (hr : r.Holds p) (h : WellFormed p (.object request))
    (hmerge : merge r request = .ok m) : m.report = r ∧ m.sources.Holds p (MergedSource.Holds p) := by
  rw [merge] at hmerge
  cases hentries : requestSources request with
  | error failure =>
    rw [hentries] at hmerge
    cases hmerge
  | ok entries =>
    rw [hentries] at hmerge
    cases hmerge
    exact ⟨rfl, holds_putContents (wellFormed_requestSources h hentries)
      (hr.sources.mapValues fun _ => holds_ofReport)⟩

theorem wellFormed_rawTrees {m : MergedReport} (h : m.sources.Holds p (MergedSource.Holds p)) :
    WellFormed p m.rawTrees := by
  refine h.wellFormed fun s hs => ?_
  rw [MergedSource.astJson]
  split
  · next t ht => exact hs.ast t ht
  · exact .null

end MergedReport

/-! ## Artifacts -/

/-- Artifacts with well-formed documents. -/
structure Artifacts.Holds (p : Text → Prop) (a : Artifacts) : Prop where
  creation : WellFormed p a.creationJson
  runtime : WellFormed p a.runtimeJson
  abi : WellFormed p a.abiJson
  sourceMap : WellFormed p a.sourceMapJson

theorem Matrix.wellFormed {α β : Type} {Q : α → Prop} {m : Matrix α} (h : m.Holds p (Table.Holds p Q)) {f : α → β}
    {cell : β → Json} (hf : ∀ a, Q a → WellFormed p (cell (f a))) :
    WellFormed p (Matrix.toJson cell (m.mapValues fun row => row.mapValues f)) := by
  rw [Matrix.toJson, Table.mapValues_mapValues]
  refine h.wellFormed fun row hrow => ?_
  rw [Table.mapValues_mapValues]
  exact hrow.wellFormed hf

namespace CompileReport

variable {r : CompileReport}

theorem holds_of_definitions (hr : r.Holds p) {name path : Text} {c : ContractReport}
    (h : (path, c) ∈ r.definitions name) : c.Holds p := by
  obtain ⟨e, he, hfound⟩ := List.mem_filterMap.mp h
  obtain ⟨c', hget, heq⟩ := Option.map_eq_some_iff.mp hfound
  cases heq
  exact (hr.contracts.values e he).get? hget

/-- **The artifacts of a well-formed report** have well-formed documents, of one contract or of all. -/
theorem holds_extract (hr : r.Holds p) {selection : Selection} {a : Artifacts}
    (h : r.extract selection = .ok a) : a.Holds p := by
  cases selection with
  | all =>
    cases h
    exact ⟨Matrix.wellFormed hr.contracts fun c hc => .text hc.creation,
      Matrix.wellFormed hr.contracts fun c hc => .text hc.runtime,
      Matrix.wellFormed hr.contracts fun c hc => wellFormed_ofAbi hc.abi,
      Matrix.wellFormed hr.contracts fun c hc => wellFormed_ofText? hc.sourceMap⟩
  | contract name =>
    rw [extract, extractOne] at h
    split at h
    · cases h
    · next path c hone =>
      cases h
      have hc : c.Holds p := holds_of_definitions hr (hone ▸ List.mem_singleton_self (path, c))
      exact ⟨.text hc.creation, .text hc.runtime, wellFormed_ofAbi hc.abi, wellFormed_ofText? hc.sourceMap⟩
    · cases h

end CompileReport

/-! ## Bundles -/

/-- A compiled source of a well-formed document. -/
structure CompiledSource.Holds (p : Text → Prop) (s : CompiledSource) : Prop where
  id : ∀ n, s.id = some n → WellFormed p (.int n)
  text : p s.text

theorem CompiledSource.gives : Decoder.Gives p CompiledSource.decoder (CompiledSource.Holds p) := by
  intro j s hj h
  obtain ⟨t, rfl, hread⟩ := model_eq_value h
  obtain ⟨g, text, hg, htext, rfl⟩ := Decoded.seq_eq_value hread
  obtain ⟨id, hid, rfl⟩ := Decoded.map_eq_value hg
  exact ⟨Field.gives Decoder.gives_integer.nullable hj forall_of_none hid,
    Field.gives_required Decoder.gives_text hj htext⟩

theorem unforeseenRejection_eq_ok {α : Type} {x : Except Rejection α} {a : α} (h : unforeseenRejection x = .ok a) :
    x = .ok a := by
  cases x with
  | ok b => exact congrArg Except.ok (Except.ok.inj h)
  | error r => exact nomatch h

namespace Bundle

variable {request : Table Json}

theorem holds_compiledSource (hp : Text.Usual p) {s : MergedSource} {compiled : CompiledSource} (hs : s.Holds p)
    (h : compiledSource s = .ok compiled) : compiled.Holds p := by
  -- an empty content, of whatever kind, stands for the empty text
  have hcontent : WellFormed p (if s.content.isEmpty then .text [] else s.content) := by
    split_ifs
    · exact .text hp.nil
    · exact hs.content
  rw [compiledSource] at h
  refine CompiledSource.gives _ _ ?_ (Decoded.toExcept_eq_ok (unforeseenRejection_eq_ok h))
  refine WellFormed.cons (.singleton (hp.name "source") hcontent) ?_ (hp.name "id") (wellFormed_idJson hs.id)
  exact (by decide : ("id" : Text) ∉ [("source" : Text)])

/-- The compiled sources have the paths of the merged ones, in order. -/
theorem holds_compiledSources (hp : Text.Usual p) {sources : Table MergedSource} {compiled : Table CompiledSource}
    (hsources : sources.Holds p (MergedSource.Holds p)) (h : compiledSources sources = .ok compiled) :
    compiled.Holds p (CompiledSource.Holds p) := by
  refine hsources.of_forall₂ (S := fun s c => compiledSource s = .ok c)
    (fun s c hs hc => holds_compiledSource hp hs hc) ?_
  clear hsources
  induction sources generalizing compiled with
  | nil =>
    cases h
    exact .nil
  | cons e rest ih =>
    obtain ⟨path, s⟩ := e
    rw [compiledSources] at h
    obtain ⟨c, hc, h⟩ := bind_eq_ok h
    obtain ⟨cs, hcs, h⟩ := bind_eq_ok h
    cases h
    exact .cons ⟨rfl, hc⟩ (ih hcs)

theorem wellFormed_itemsOf (hp : Text.Usual p) {j : Json} {items : List Json} (hj : WellFormed p j)
    (h : itemsOf j = .ok items) : WellFormed p (.list items) := by
  cases j with
  | list xs =>
    cases h
    exact hj
  | object entries =>
    cases h
    refine .list fun x hx => ?_
    obtain ⟨e, he, rfl⟩ := List.mem_map.mp hx
    exact .text (hj.key he)
  | text t =>
    cases h
    refine .list fun x hx => ?_
    obtain ⟨c, -, rfl⟩ := List.mem_map.mp hx
    exact .text (hp.point c)
  | null | bool | int | float => exact nomatch h

theorem wellFormed_askedRemappings (h : WellFormed p (.object request)) : WellFormed p (askedRemappings request) := by
  have hsettings : WellFormed p (.object (Settings.tableAt request "settings")) := h.entriesAt "settings"
  exact MergedReport.wellFormed_field hsettings "remappings"

theorem holds_remappingsOf (hp : Text.Usual p) (hrequest : WellFormed p (.object request))
    {remappings : Option (List Text)} (h : remappingsOf request = .ok remappings) :
    ∀ ts, remappings = some ts → ∀ t ∈ ts, p t := by
  have hasked := wellFormed_askedRemappings hrequest
  rw [remappingsOf_eq] at h
  generalize askedRemappings request = asked at h hasked
  unfold remappingsFrom at h
  split at h
  · cases h
    exact forall_of_none
  · obtain ⟨items, hitems, h⟩ := bind_eq_ok h
    obtain ⟨texts, htexts, h⟩ := bind_eq_ok h
    cases h
    rintro ts ⟨⟩
    exact Decoder.gives_text.list _ _ (wellFormed_itemsOf hp hasked hitems)
      (Decoded.inside_eq_value (Decoded.toExcept_eq_ok (unforeseenRejection_eq_ok htexts)))

/-- What a bundle is made of, so that its document is well-formed. -/
structure Holds (p : Text → Prop) (b : Bundle) : Prop where
  ast : WellFormed p b.ast
  sources : b.sources.Holds p (CompiledSource.Holds p)
  artifacts : b.artifacts.Holds p
  invariants : WellFormed p b.invariants
  version : p b.provenance.version
  request : WellFormed p (.object b.provenance.request)
  remappings : ∀ ts, b.remappings = some ts → ∀ t ∈ ts, p t

theorem holds_assemble (hp : Text.Usual p) {m : MergedReport} (hreport : m.report.Holds p)
    (hsources : m.sources.Holds p (MergedSource.Holds p)) {version : Text} (hversion : p version)
    (hrequest : WellFormed p (.object request)) {selection : Selection} {ast invariants : Json}
    (hast : WellFormed p ast) (hinvariants : WellFormed p invariants) {b : Bundle}
    (h : assemble m (.text version) request selection ast invariants = .ok b) : b.Holds p := by
  rw [assemble] at h
  obtain ⟨sources, hcompiled, h⟩ := bind_eq_ok h
  obtain ⟨artifacts, hartifacts, h⟩ := bind_eq_ok h
  obtain ⟨provenance, hprovenance, h⟩ := bind_eq_ok h
  obtain ⟨remappings, hremappings, h⟩ := bind_eq_ok h
  rw [provenanceOf_eq] at hprovenance
  cases hprovenance
  cases h
  exact ⟨hast, holds_compiledSources hp hsources hcompiled, CompileReport.holds_extract hreport hartifacts,
    hinvariants, hversion, hrequest, holds_remappingsOf hp hrequest hremappings⟩

/-- **What a well-formed report on a well-formed request is made into**, unless the syntax trees are processed in
some other way. -/
theorem holds_normalize (hp : Text.Usual p) {report : Json} (hreport : WellFormed p report) {version : Text}
    (hversion : p version) (hrequest : WellFormed p (.object request)) {selection : Selection} {b : Bundle}
    (h : (normalize report (.text version) (.object request) selection .default).outcome = .ok b) : b.Holds p := by
  rw [outcome_normalize] at h
  obtain ⟨r, haccept, hread⟩ := bind_eq_ok h
  obtain ⟨entries, hentries, hmade⟩ := bind_eq_ok hread
  cases hentries
  obtain ⟨m, hmerge, hassembled⟩ := bind_eq_ok hmade
  have hr : r.Holds p :=
    CompileReport.gives hp.nil _ _ hreport (Decoded.toExcept_eq_ok (CompileReport.ofJson_of_accept haccept))
  obtain ⟨rfl, hsources⟩ := MergedReport.holds_merge hr hrequest hmerge
  have htrees := MergedReport.wellFormed_rawTrees hsources
  -- the trees of the bundle are the raw ones whether the analysis fails or not, and nothing is derived from them
  have hast : WellFormed p (Postprocessing.default.analysis m).2.ast := by
    rw [Postprocessing.analysis, Postprocessing.default]
    dsimp only
    unfold MergedReport.analyze
    cases m.treeless <;> exact htrees
  have hinvariants : WellFormed p
      (Postprocessing.default.invariants (Postprocessing.default.analysis m).2.tree).2 := by
    generalize (Postprocessing.default.analysis m).2.tree = tree
    cases tree <;> exact .null
  exact holds_assemble hp hr hsources hversion hrequest hast hinvariants hassembled

theorem wellFormed_compiledSource (hp : Text.Usual p) {s : CompiledSource} (hs : s.Holds p) :
    WellFormed p s.toJson := by
  refine WellFormed.cons (.singleton (hp.name "source") (.text hs.text)) ?_ (hp.name "id") (wellFormed_idJson hs.id)
  exact (by decide : ("id" : Text) ∉ [("source" : Text)])

theorem wellFormed_provenance (hp : Text.Usual p) {source : Provenance} (hversion : p source.version)
    (hrequest : WellFormed p (.object source.request)) : WellFormed p source.toJson := by
  refine WellFormed.finiteOnly (WellFormed.cons (.singleton (hp.name "compiler_json") hrequest) ?_
    (hp.name "version") (.text hversion))
  exact (by decide : ("version" : Text) ∉ [("compiler_json" : Text)])

theorem wellFormed_remappings (remappings : Option (List Text)) : (∀ ts, remappings = some ts → ∀ t ∈ ts, p t) →
    WellFormed p (match remappings with
      | some remappings => .list (remappings.map .text)
      | none => .null) := by
  intro h
  cases remappings with
  | none => exact .null
  | some ts => exact wellFormed_texts (h ts rfl)

/-- **The document of a bundle is well-formed.** -/
theorem wellFormed_toJson (hp : Text.Usual p) {b : Bundle} (h : b.Holds p) : WellFormed p b.toJson := by
  have hremappings := wellFormed_remappings _ h.remappings
  have hsources := h.sources.wellFormed fun s hs => wellFormed_compiledSource hp hs
  have hprovenance := wellFormed_provenance hp h.version h.request
  rw [toJson]
  refine .object ?_ ?_ ?_
  · exact (by decide : (["ast", "sourcemap", "sources", "bytecode", "runtime_bytecode", "abi", "invariants",
      "compiler_args", "remappings"] : List Text).Nodup)
  · simp only [List.forall_mem_cons]
    exact ⟨hp.name _, hp.name _, hp.name _, hp.name _, hp.name _, hp.name _, hp.name _, hp.name _, hp.name _,
      List.forall_mem_nil _⟩
  · simp only [List.forall_mem_cons]
    exact ⟨h.ast, h.artifacts.sourceMap, hsources, h.artifacts.creation, h.artifacts.runtime, h.artifacts.abi,
      h.invariants, hprovenance, hremappings, List.forall_mem_nil _⟩

end Bundle

end SolidityBuild
