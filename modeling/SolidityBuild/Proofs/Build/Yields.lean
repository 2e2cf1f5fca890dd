import SolidityBuild.Proofs.Build.FolderBuilds
import SolidityBuild.Proofs.Build.Records
import SolidityBuild.Proofs.Cache.Confined
import SolidityBuild.Proofs.Compilation.BundleDocuments
import SolidityBuild.Proofs.Tools.Frameworks
import SolidityBuild.Proofs.Version.LongForm

/-!
What builds give, whatever they are answered. A backend keeps terms of its state, and answers with values that have no
pair of surrogates, as whatever is read from octets has none; a computation yields values of a kind if it gives them
for all such answers. That a build yields bundles with well-formed documents, and writes nothing but entries of the
cache, is proved along its requests, without any backend; what it does on a backend follows by one induction.
-/

set_option autoImplicit false

namespace SolidityBuild

open Schema Json

variable {σ α β : Type} {terms : σ → Prop} {Q : α → Prop} {R : β → Prop}

/-! ## Keeping terms -/

/-- A computation that keeps terms of the state, and gives only values of a kind. -/
def Task.Keeps (terms : σ → Prop) (Q : α → Prop) (x : Task σ α) : Prop :=
  ∀ s, terms s → terms (x.result s).1 ∧ ∀ a, (x.result s).2 = .ok a → Q a

theorem Task.Keeps.bind {x : Task σ α} {f : α → Task σ β} (hx : x.Keeps terms Q)
    (hf : ∀ a, Q a → (f a).Keeps terms R) : (x >>= f).Keeps terms R := by
  intro s hs
  obtain ⟨hterms, hgiven⟩ := hx s hs
  rw [Task.result_bind]
  rcases hresult : x.result s with ⟨s', failure | a⟩
  · rw [hresult] at hterms
    exact ⟨hterms, forall_of_error failure⟩
  · rw [hresult] at hterms hgiven
    exact hf a (hgiven a rfl) s' hterms

/-- A record without a pair of surrogates. -/
structure BuildRecord.PairFree (r : BuildRecord) : Prop where
  version : r.longVersion.PairFree
  input : WellFormed Text.PairFree (.object r.input)

/-- A backend that keeps terms of its state as long as only entries of the cache are written, and whose answers have
no pair of surrogates. -/
structure Backend.Answers (backend : Backend σ) (terms : σ → Prop) : Prop where
  has : ∀ entry, (backend.has entry).Keeps terms fun _ => True
  read : ∀ entry, (backend.read entry).Keeps terms (WellFormed Text.PairFree)
  write : ∀ entry value, Cache.IsEntry entry → (backend.write entry value).Keeps terms fun _ => True
  invoke : ∀ version request, (backend.invoke version request).Keeps terms (WellFormed Text.PairFree)
  framework : ∀ kind folder,
    (backend.framework kind folder).Keeps terms fun outcome => ∀ r ∈ outcome.records, r.PairFree

/-! ## Yielding -/

namespace Program

/-- A computation that writes only entries of the cache and gives only values of a kind, whatever it is answered
without a pair of surrogates. -/
def Yields (Q : α → Prop) : Program α → Prop
  | done value => Q value
  | fail _ => True
  | tell _ next => next.Yields Q
  | has _ next => ∀ found, (next found).Yields Q
  | read _ next => ∀ value, WellFormed Text.PairFree value → (next value).Yields Q
  | write entry _ next => Cache.IsEntry entry ∧ next.Yields Q
  | invoke _ _ next => ∀ report, WellFormed Text.PairFree report → (next report).Yields Q
  | framework _ _ next => ∀ outcome : FrameworkOutcome, (∀ r ∈ outcome.records, r.PairFree) → (next outcome).Yields Q

/-- **What a computation yields, it gives on every backend that answers so.** -/
theorem Yields.keeps {x : Program α} (h : x.Yields Q) {backend : Backend σ} (hbackend : backend.Answers terms) :
    (x.run backend).Keeps terms Q := by
  -- along the requests: what a backend answers is among the answers for which the rest yields values of the kind
  induction x with
  | done value =>
    intro s hs
    exact ⟨hs, fun a ha => Except.ok.inj ha ▸ h⟩
  | fail failure => exact fun s hs => ⟨hs, forall_of_error failure⟩
  | tell event next ih =>
    intro s hs
    have hnext := ih h s hs
    rwa [run, Task.result_bind, Task.result_tell]
  | has entry next ih => exact (hbackend.has entry).bind fun found _ => ih found (h found)
  | read entry next ih => exact (hbackend.read entry).bind fun value hvalue => ih value (h value hvalue)
  | write entry value next ih => exact (hbackend.write entry value h.1).bind fun _ _ => ih h.2
  | invoke version request next ih =>
    exact (hbackend.invoke version request).bind fun report hreport => ih report (h report hreport)
  | framework kind folder next ih =>
    exact (hbackend.framework kind folder).bind fun outcome houtcome => ih outcome (h outcome houtcome)

theorem Yields.bind {x : Program α} (hx : x.Yields Q) {f : α → Program β} (hf : ∀ a, Q a → (f a).Yields R) :
    (x >>= f).Yields R := by
  change (x.andThen f).Yields R
  induction x with
  | done value => exact hf value hx
  | fail failure => trivial
  | tell event next ih => exact ih hx
  | has entry next ih => exact fun found => ih found (hx found)
  | read entry next ih => exact fun value hvalue => ih value (hx value hvalue)
  | write entry value next ih => exact ⟨hx.1, ih hx.2⟩
  | invoke version request next ih => exact fun report hreport => ih report (hx report hreport)
  | framework kind folder next ih => exact fun outcome houtcome => ih outcome (hx outcome houtcome)

theorem yields_tellAll (events : List Event) {next : Program α} (h : next.Yields Q) :
    (tellAll events next).Yields Q := by
  induction events with
  | nil => exact h
  | cons event events ih => exact ih

theorem yields_ofNarrated {x : Narrated α} (h : ∀ a, x.outcome = .ok a → Q a) : (ofNarrated x).Yields Q := by
  refine yields_tellAll _ ?_
  cases houtcome : x.outcome with
  | ok a => exact h a houtcome
  | error failure => trivial

end Program

/-! ## Compilations -/

/-- A document with a key has no surrogates, so no pair of them either. -/
theorem Cache.wellFormed_of_key {p : Text → Prop} {document : Json} {k : Text} (h : WellFormed p document)
    (hk : Cache.key document = .ok k) : WellFormed Text.PairFree document := by
  have hscalar : ∀ t ∈ document.texts, t.Scalar := by
    by_contra hnot
    obtain ⟨fault, hfault⟩ := (Cache.key_fails_iff h).mpr hnot
    exact nomatch hk.symm.trans hfault
  exact h.of_texts fun t ht => (hscalar t ht).pairFree

/-- A document that is recorded has a key. -/
theorem CacheState.yields_resolve (document : Json) :
    (CacheState.resolve document).Yields fun state => Cache.key document = .ok state.key := by
  rw [resolve]
  cases hk : Cache.key document with
  | error fault => trivial
  | ok k =>
    intro recorded
    cases recorded with
    | true => exact fun answered => rfl
    -- a document that is new is written first, under the key that it has
    | false => exact ⟨.input hk, fun answered => rfl⟩

theorem CacheState.yields_answer {document : Json} {state : CacheState} (hk : Cache.key document = .ok state.key)
    (version : Text) : (state.answer version).Yields (WellFormed Text.PairFree) := by
  rw [answer]
  split_ifs
  · exact fun report hreport => hreport
  · exact fun request _ report hreport => ⟨.output hk, hreport⟩

/-- **A compilation yields a bundle with a well-formed document.** -/
theorem CompileRequest.yields_compile {p : Text → Prop} {r : CompileRequest}
    (hdocument : WellFormed p (.object r.document)) {version : Text} (hversion : version.PairFree)
    (selection : Selection) : (r.compile version selection .default).Yields (Bundle.Holds Text.PairFree) := by
  refine (CacheState.yields_resolve _).bind fun state hk => ?_
  refine (CacheState.yields_answer hk version).bind fun report hreport => ?_
  refine Program.yields_ofNarrated fun bundle hbundle => ?_
  exact Bundle.holds_normalize Text.usual_pairFree hreport hversion (Cache.wellFormed_of_key hdocument hk) hbundle

/-! ## Records -/

namespace Version

theorem pairFree_ofLong {t : Text} (h : t.PairFree) : (ofLong t).PairFree := by
  have hversion : (kept t).PairFree := by
    obtain ⟨rest, hrest⟩ := kept_isPrefix t
    rw [← hrest] at h
    exact h.left_of_append
  rw [ofLong_eq]
  split_ifs
  · exact hversion
  · exact hversion.cons fun _ _ hhigh => absurd hhigh (by decide)

end Version

namespace BuildOrder

theorem yields_compileRecords {records : List BuildRecord} (h : ∀ r ∈ records, r.PairFree) :
    (compileRecords .default records).Yields fun bundles => ∀ b ∈ bundles, b.Holds Text.PairFree := by
  induction records with
  | nil => exact List.forall_mem_nil _
  | cons record rest ih =>
    obtain ⟨hrecord, hrest⟩ := List.forall_mem_cons.mp h
    have hfirst : (record.compile .default).Yields (Bundle.Holds Text.PairFree) := by
      rw [BuildRecord.compile]
      split
      · trivial
      · next request hrequest =>
        have hnames := Text.usual_pairFree.name
        have hsent := CompileRequest.wellFormed_toJson hnames hrecord.input hrequest
        exact CompileRequest.yields_compile (CompileRequest.wellFormed_document hnames hsent)
          (Version.pairFree_ofLong hrecord.version) .all
    rw [compileRecords_cons]
    exact hfirst.bind fun bundle hbundle => (ih hrest).bind fun bundles hbundles =>
      List.forall_mem_cons.mpr ⟨hbundle, hbundles⟩

/-! ## Builds -/

variable {order : BuildOrder} {files : Files}

/-- The request that is made of collected sources is well-formed. -/
theorem wellFormed_folderRequest {sources : Table SourceText} (hkeys : sources.keys.Nodup)
    (h : ∀ e ∈ sources, Project.IsCollected e.2) (remappings : List Text) :
    WellFormed (fun _ => True) (.object (folderRequest sources remappings).document) := by
  have hsources : WellFormed (fun _ => True) (.object (folderRequest sources remappings).sourcesJson) := by
    have hcollected : sources.Holds (fun _ => True) Project.IsCollected := ⟨hkeys, fun _ _ => trivial, h⟩
    refine hcollected.wellFormed fun s hs => ?_
    rw [SourceText.toJson, hs.bare]
    exact .singleton trivial (.text trivial)
  have hsettings : WellFormed (fun _ => True) (.object (folderRequest sources remappings).settings) :=
    .singleton trivial (wellFormed_texts fun _ _ => trivial)
  have hraw : WellFormed (fun _ => True) (.object (folderRequest sources remappings).rawEntries) := by
    refine WellFormed.cons (WellFormed.cons (.singleton trivial hsettings) ?_ trivial hsources) ?_ trivial
      (.text trivial)
    · exact (by decide : ("sources" : Text) ∉ [("settings" : Text)])
    · exact (by decide : ("language" : Text) ∉ [("sources" : Text), "settings"])
  exact CompileRequest.wellFormed_document (fun _ => trivial)
    (CompileRequest.wellFormed_toJson (fun _ => trivial) hraw (ofJson_folderRequest h remappings))

theorem yields_buildFolder (hpost : order.post = .default) (hfiles : files.WellFormed) (hnames : files.Separated)
    {version : Text} (hversion : version.PairFree) :
    (order.buildFolder files version).Yields (Bundle.Holds Text.PairFree) := by
  have hgathered : (Program.ofNarrated (Project.sources files order.folder)).Yields fun sources =>
      sources.keys.Nodup ∧ ∀ e ∈ sources, Project.IsCollected e.2 :=
    Program.yields_ofNarrated fun _ hsources => Project.collected_of_sources hfiles hnames hsources
  have hlisted : (Program.ofNarrated (Project.remappings files order.folder)).Yields fun _ => True :=
    Program.yields_ofNarrated fun _ _ => trivial
  refine hgathered.bind fun sources hsources => hlisted.bind fun remappings _ => ?_
  rw [hpost]
  exact CompileRequest.yields_compile (wellFormed_folderRequest hsources.1 hsources.2 remappings) hversion _

/-- **A build yields bundles with well-formed documents**, and writes nothing but entries of the cache. -/
theorem yields_build (hpost : order.post = .default) (hfiles : files.WellFormed) (hnames : files.Separated)
    (hversion : ∀ version, order.version = some version → version.PairFree) :
    (order.build files).Yields fun bundles => ∀ b ∈ bundles, b.Holds Text.PairFree := by
  have hkind : (order.kind files).Yields fun _ => True := by
    rw [kind]
    split
    · trivial
    · exact Program.yields_ofNarrated fun _ _ => trivial
    · trivial
  -- nothing is needed of the kind: sources are compiled as they are gathered, and records as a framework answers them
  refine hkind.bind fun kind _ => ?_
  have hstarted : (Program.tell ⟨.info, "build_started",
      [("project", .text kind.name), ("task_dir", .text order.folder.text)]⟩ (.done ())).Yields fun _ => True := trivial
  refine hstarted.bind fun _ _ => ?_
  split_ifs
  · split
    · trivial
    · trivial
    · next version hnamed =>
      exact (yields_buildFolder hpost hfiles hnames (hversion _ hnamed)).bind fun bundle hbundle =>
        List.forall_mem_singleton.mpr hbundle
  · trivial
  · have htold : (Program.tellAll (ignoredSelection kind order.selection) (.done ())).Yields fun _ => True :=
      Program.yields_tellAll _ trivial
    refine htold.bind fun _ _ outcome houtcome => ?_
    dsimp only
    split_ifs
    · rw [hpost]
      exact yields_compileRecords houtcome
    · trivial

end BuildOrder

/-! ## On a workshop -/

/-- A record that is read from a file has no pair of surrogates. -/
theorem Framework.pairFree_of_holdsRecord {files : Files} {path : Path} {r : BuildRecord}
    (h : HoldsRecord files path r) : r.PairFree := by
  obtain ⟨text, document, htext, hparse, hrecord⟩ := h
  have hdocument := pairFree_of_parse (Files.scalar_of_readText htext) hparse
  obtain ⟨t, rfl, hread⟩ := model_eq_value (Decoded.toExcept_eq_ok hrecord)
  obtain ⟨g, input, hg, hinput, rfl⟩ := Decoded.seq_eq_value hread
  obtain ⟨version, hversion, rfl⟩ := Decoded.map_eq_value hg
  have hmapping := Field.gives_required Decoder.gives_mapping hdocument hinput
  exact ⟨Field.gives_required Decoder.gives_text hdocument hversion, hmapping⟩

theorem Framework.pairFree_of_outcomeOfFolder {files : Files} {folder : Path} {outcome : FrameworkOutcome}
    (h : (outcomeOfFolder files folder).outcome = .ok outcome) : ∀ r ∈ outcome.records, r.PairFree := by
  rcases outcomeOfFolder_cases files folder with
    ⟨records, htold, -, paths, -, hall⟩ | ⟨complaint, htold⟩ | ⟨defect, htold, -⟩
  · cases htold.symm.trans h
    intro r hr
    obtain ⟨path, -, hholds⟩ := exists_mem_of_forall₂ hall hr
    exact pairFree_of_holdsRecord hholds
  · cases htold.symm.trans h
    exact List.forall_mem_nil _
  · exact nomatch htold.symm.trans h

theorem Framework.gives_build (framework : Framework) (files : Files) (folder : Path) (timeLimit : Nat) :
    (framework.build files folder timeLimit).Gives (fun _ => True) fun outcome =>
      ∀ r ∈ outcome.records, r.PairFree := by
  have hrun : ∀ c, (Task.change fun w : Workbench => w.run c).Gives (fun _ => True) fun _ => True := fun c w =>
    ⟨⟨[c], rfl, fun _ _ => trivial⟩, rfl, fun _ _ _ => trivial⟩
  refine (Task.gives_tell _).bind fun _ => (hrun _).bind fun ended => ?_
  cases ended with
  | notFound | timedOut => exact Task.gives_pure (List.forall_mem_nil _)
  | finished code stdout stderr =>
    by_cases hcode : code = 0
    · subst hcode
      exact Task.gives_ofNarrated fun _ => pairFree_of_outcomeOfFolder
    · dsimp only
      rw [if_pos hcode]
      exact Task.gives_pure (List.forall_mem_nil _)

namespace Workshop

/-- What ordinary builds with a store in a folder keep: the tree is a tree, changed in that folder only, and what
commands print has no surrogates. -/
structure Tended (store : FolderStore) (start : Files) (w : Workshop) : Prop where
  wellFormed : w.files.WellFormed
  confined : Files.Confined store.folder start w.files
  printsScalar : w.bench.PrintsScalar

/-- A run of programs on the bench keeps it. -/
theorem keeps_onBench {store : FolderStore} {start : Files} {P : Command → Prop} {x : Task Workbench α}
    (h : x.Gives P Q) : (onBench x).Keeps (Tended store start) Q := by
  rintro w ⟨hfiles, hconfined, hbench⟩
  have hx := h w.bench
  refine ⟨⟨hfiles, hconfined, ?_⟩, hx.given hbench⟩
  rw [Workbench.PrintsScalar]
  change ∀ n c code stdout stderr, (x.run w.bench).1.respond n c = _ → _
  rw [hx.world]
  exact hbench

theorem pairFree_of_read {store : FolderStore} {files : Files} {name : Text} {j : Json}
    (h : store.read files name = .ok j) : WellFormed Text.PairFree j := by
  rw [FolderStore.read] at h
  split at h
  · cases h
  · split at h
    · cases h
    · cases h
    · cases h
    · next text hread =>
      split at h
      · cases h
      · cases h
      · next hparse =>
        cases h
        exact pairFree_of_parse (Files.scalar_of_readText hread) hparse
      · cases h

/-- **The backend of ordinary builds** answers without a pair of surrogates and changes its folder only. -/
theorem answers_folder (store : FolderStore) (timeLimit : Nat) (start : Files) :
    (backend (.folder store) timeLimit).Answers (Tended store start) where
  has _ _ hw := ⟨hw, fun _ _ => trivial⟩
  read _ _ hw := ⟨hw, fun _ => pairFree_of_read⟩
  write entry value hentry w := by
    rintro ⟨hfiles, hconfined, hbench⟩
    obtain ⟨hfiles', hconfined'⟩ := store.confined_write hfiles hentry.name value
    rw [result_write_folder]
    exact ⟨⟨hfiles', hconfined.trans hconfined', hbench⟩, fun _ _ => trivial⟩
  invoke version request w hw := by
    obtain ⟨hkept, -⟩ := keeps_onBench (Compiler.gives_invoke version request timeLimit) w hw
    refine ⟨hkept, fun report hreport => ?_⟩
    -- the report is read from what the compiler has printed
    obtain ⟨answer, rfl⟩ := exists_answer hw.printsScalar (Prod.ext rfl hreport)
    exact answer.wellFormed
  framework kind folder := by
    change (runFramework kind folder timeLimit).Keeps _ _
    rw [runFramework]
    cases Framework.ofKind? kind with
    | none => exact fun w hw => ⟨hw, forall_of_error _⟩
    | some framework => exact fun w hw => keeps_onBench (framework.gives_build w.files folder timeLimit) w hw

end Workshop

end SolidityBuild
