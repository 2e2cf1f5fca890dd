import SolidityBuild.Build.Project
import SolidityBuild.Proofs.Build.Conduct
import SolidityBuild.Proofs.Cache.Key
import SolidityBuild.Proofs.Document.CompileRequest

/-!
The records of a framework, compiled in turn. Each record is compiled on the state that the records before it left,
as a request of its own, by the version it names; its bundle is the next one of the list. The first record that is
no request, or whose compilation fails, ends it all: what the records before it did stays done, and the records
after it are not looked at.
-/

set_option autoImplicit false

namespace SolidityBuild

variable {σ : Type}

/-! ## One record -/

/-- Compiles a recorded request. -/
def BuildRecord.compile (record : BuildRecord) (post : Postprocessing) : Program Bundle :=
  match CompileRequest.ofJson (.object record.input) with
  | .error rejection => .fail (.requestRejected rejection)
  | .ok request => request.compile (Version.ofLong record.longVersion) .all post

/-- What becomes of a record: what it was given is no request, and nothing is done; or it is compiled as any other
request is, by the version that its long version names, for all contracts. -/
inductive BuildRecord.Becomes (backend : Backend σ) (post : Postprocessing) (s : σ) (record : BuildRecord) :
    Conduct σ Bundle → Prop where
  | rejected {rejection : Schema.Rejection}
      (invalid : CompileRequest.ofJson (.object record.input) = .error rejection) :
      Becomes backend post s record ⟨s, [], .error (.requestRejected rejection)⟩
  | compiled {request : CompileRequest} (valid : CompileRequest.ofJson (.object record.input) = .ok request) :
      Becomes backend post s record
        ((request.compile (Version.ofLong record.longVersion) .all post).conduct backend s)

theorem BuildRecord.becomes_iff {backend : Backend σ} {post : Postprocessing} {s : σ} {record : BuildRecord}
    {c : Conduct σ Bundle} : record.Becomes backend post s c ↔ (record.compile post).conduct backend s = c := by
  rw [BuildRecord.compile]
  cases hread : CompileRequest.ofJson (.object record.input) with
  | error rejection =>
    constructor
    · intro h
      cases h with
      | rejected invalid =>
        cases invalid.symm.trans hread
        rfl
      | compiled valid => exact nomatch valid.symm.trans hread
    · rintro rfl
      exact .rejected hread
  | ok request =>
    constructor
    · intro h
      cases h with
      | rejected invalid => exact nomatch invalid.symm.trans hread
      | compiled valid =>
        cases valid.symm.trans hread
        rfl
    · rintro rfl
      exact .compiled hread

/-! ## Records in turn -/

/-- Records that are compiled in turn, each on the state that the one before it left, until none is left: the state
in the end, everything that was asked of the compiler, and the bundles. -/
inductive BuildRecord.InTurn (backend : Backend σ) (post : Postprocessing) :
    List BuildRecord → σ → σ → List Inquiry → List Bundle → Prop where
  | none (s : σ) : InTurn backend post [] s s [] []
  | next {record : BuildRecord} {rest : List BuildRecord} {s s₁ s₂ : σ} {asked asked' : List Inquiry}
      {bundle : Bundle} {bundles : List Bundle} (first : record.Becomes backend post s ⟨s₁, asked, .ok bundle⟩)
      (others : InTurn backend post rest s₁ s₂ asked' bundles) :
      InTurn backend post (record :: rest) s s₂ (asked ++ asked') (bundle :: bundles)

/-- **No bundle is lost or out of order**: there are as many as records, and each one comes from the record at its
place, compiled after all those before it. -/
theorem BuildRecord.InTurn.places {backend : Backend σ} {post : Postprocessing} {records : List BuildRecord}
    {s s' : σ} {asked : List Inquiry} {bundles : List Bundle} (h : InTurn backend post records s s' asked bundles) :
    bundles.length = records.length ∧
      ∀ i record, records[i]? = some record → ∃ bundle s₁ s₂ before own, bundles[i]? = some bundle ∧
        InTurn backend post (records.take i) s s₁ before (bundles.take i) ∧
        record.Becomes backend post s₁ ⟨s₂, own, .ok bundle⟩ := by
  induction h with
  | none s => exact ⟨rfl, fun i record hrecord => nomatch hrecord⟩
  | @next record rest s s₁ s₂ asked asked' bundle bundles first others ih =>
    refine ⟨congrArg (· + 1) ih.1, fun i later hlater => ?_⟩
    cases i with
    | zero =>
      cases hlater
      exact ⟨bundle, s, s₁, [], asked, rfl, .none s, first⟩
    | succ i =>
      obtain ⟨bundle', s₃, s₄, before, own, hbundle, hbefore, hown⟩ := ih.2 i later hlater
      exact ⟨bundle', s₃, s₄, asked ++ before, own, hbundle, .next first hbefore, hown⟩

namespace BuildOrder

variable {backend : Backend σ} {post : Postprocessing} {record : BuildRecord} {s s₁ : σ} {asked : List Inquiry}

theorem compileRecords_cons (post : Postprocessing) (record : BuildRecord) (rest : List BuildRecord) :
    compileRecords post (record :: rest) = (do
      let bundle ← record.compile post
      let bundles ← compileRecords post rest
      pure (bundle :: bundles)) := by
  rw [compileRecords, BuildRecord.compile]
  cases CompileRequest.ofJson (.object record.input) <;> rfl

/-- Where the first record fails, nothing else is done. -/
theorem conduct_compileRecords_failed {failure : Failure}
    (h : (record.compile post).conduct backend s = ⟨s₁, asked, .error failure⟩) (rest : List BuildRecord) :
    (compileRecords post (record :: rest)).conduct backend s = ⟨s₁, asked, .error failure⟩ := by
  rw [compileRecords_cons]
  exact Program.conduct_bind_error backend h _

/-- Where the first record is compiled, the others follow, and its bundle is the first one. -/
theorem conduct_compileRecords_compiled {bundle : Bundle}
    (h : (record.compile post).conduct backend s = ⟨s₁, asked, .ok bundle⟩) {rest : List BuildRecord} {s₂ : σ}
    {asked' : List Inquiry} {outcome : Except Failure (List Bundle)}
    (hrest : (compileRecords post rest).conduct backend s₁ = ⟨s₂, asked', outcome⟩) :
    (compileRecords post (record :: rest)).conduct backend s =
      ⟨s₂, asked ++ asked', outcome.map (bundle :: ·)⟩ := by
  rw [compileRecords_cons, Program.conduct_bind_ok backend h]
  cases outcome with
  | error failure =>
    rw [Program.conduct_bind_error backend hrest]
    rfl
  | ok bundles =>
    rw [Program.conduct_bind_ok backend hrest]
    dsimp only
    rw [Program.conduct_pure, List.append_nil]
    rfl

/-- **Bundles are given** exactly if the records are compiled in turn, every one of them. -/
theorem conduct_compileRecords_ok_iff {records : List BuildRecord} {s' : σ} {bundles : List Bundle} :
    (compileRecords post records).conduct backend s = ⟨s', asked, .ok bundles⟩ ↔
      BuildRecord.InTurn backend post records s s' asked bundles := by
  constructor
  · intro h
    induction records generalizing s asked bundles with
    | nil =>
      cases h
      exact .none s
    | cons record rest ih =>
      rcases hfirst : (record.compile post).conduct backend s with ⟨s₁, asked₁, outcome⟩
      cases outcome with
      | error failure => exact nomatch h.symm.trans (conduct_compileRecords_failed hfirst rest)
      | ok bundle =>
        rcases hrest : (compileRecords post rest).conduct backend s₁ with ⟨s₂, asked₂, outcomes⟩
        rw [conduct_compileRecords_compiled hfirst hrest] at h
        cases outcomes with
        | error failure => exact nomatch h
        | ok bundles' =>
          cases h
          exact .next (BuildRecord.becomes_iff.mpr hfirst) (ih hrest)
  · intro h
    induction h with
    | none s => rfl
    | next first others ih => exact conduct_compileRecords_compiled (BuildRecord.becomes_iff.mp first) ih

/-- **It fails** exactly if a record fails after those before it were compiled in turn; what it did until then
stays done, and no record after it is looked at. -/
theorem conduct_compileRecords_error_iff {records : List BuildRecord} {s' : σ} {failure : Failure} :
    (compileRecords post records).conduct backend s = ⟨s', asked, .error failure⟩ ↔
      ∃ before record rest s₁ done bundles own, records = before ++ record :: rest ∧
        BuildRecord.InTurn backend post before s s₁ done bundles ∧
        record.Becomes backend post s₁ ⟨s', own, .error failure⟩ ∧ asked = done ++ own := by
  constructor
  · intro h
    induction records generalizing s asked with
    | nil => exact nomatch h
    | cons record rest ih =>
      rcases hfirst : (record.compile post).conduct backend s with ⟨s₁, asked₁, outcome⟩
      cases outcome with
      | error failure' =>
        cases h.symm.trans (conduct_compileRecords_failed hfirst rest)
        exact ⟨[], record, rest, s, [], [], asked, rfl, .none s, BuildRecord.becomes_iff.mpr hfirst, rfl⟩
      | ok bundle =>
        rcases hrest : (compileRecords post rest).conduct backend s₁ with ⟨s₂, asked₂, outcomes⟩
        rw [conduct_compileRecords_compiled hfirst hrest] at h
        cases outcomes with
        | ok bundles' => exact nomatch h
        | error failure' =>
          cases h
          obtain ⟨before, later, others, s₃, done, bundles, own, rfl, hbefore, hlater, rfl⟩ := ih hrest
          exact ⟨record :: before, later, others, s₃, asked₁ ++ done, bundle :: bundles, own, rfl,
            .next (BuildRecord.becomes_iff.mpr hfirst) hbefore, hlater, (List.append_assoc _ _ _).symm⟩
  · rintro ⟨before, record, rest, s₁, done, bundles, own, rfl, hbefore, hrecord, rfl⟩
    induction hbefore with
    | none s => exact conduct_compileRecords_failed (BuildRecord.becomes_iff.mp hrecord) rest
    | next first others ih =>
      rw [List.append_assoc]
      exact conduct_compileRecords_compiled (BuildRecord.becomes_iff.mp first) (ih hrecord)

/-! ## Builds by a framework -/

variable {order : BuildOrder} {files : Files} {kind : ProjectKind}

/-- Finding out the kind of a project makes no request. -/
theorem conduct_kind (backend : Backend σ) (order : BuildOrder) (files : Files) (s : σ) :
    ∃ outcome, (order.kind files).conduct backend s = ⟨s, [], outcome⟩ := by
  rw [BuildOrder.kind]
  split
  · exact ⟨_, Program.conduct_fail backend _ s⟩
  · exact ⟨_, Program.conduct_ofNarrated backend _ s⟩
  · exact ⟨_, Program.conduct_pure backend _ s⟩

/-- A build of a kind with a framework at hand is what the framework records. -/
theorem conduct_build (hkind : (order.kind files).result backend s = (s, .ok kind)) (hframework : kind ≠ .folder)
    (hprovider : kind ∈ order.providers) :
    (order.build files).conduct backend s = (order.buildRecorded kind).conduct backend s := by
  have hfound : (order.kind files).conduct backend s = ⟨s, [], .ok kind⟩ := by
    obtain ⟨outcome, houtcome⟩ := conduct_kind backend order files s
    rw [Program.result_eq_conduct, houtcome] at hkind
    cases hkind
    exact houtcome
  have hcontains : (!order.providers.contains kind) = false := by
    rw [List.contains_iff_mem.mpr hprovider]
    rfl
  have htold : (Program.tellAll (ignoredSelection kind order.selection) (.done ())).conduct backend s =
      ⟨s, [], .ok ()⟩ := Program.conduct_tellAll backend _ _ s
  rw [build, Program.conduct_bind_quiet backend hfound, if_neg hframework, if_neg (Bool.eq_false_iff.mp hcontains),
    Program.conduct_bind_quiet backend (Program.conduct_told backend _ s), Program.conduct_bind_quiet backend htold]

/-- What a framework records is compiled from the state that the framework left. -/
theorem conduct_buildRecorded {outcome : FrameworkOutcome}
    (hrun : (backend.framework kind order.folder).result s = (s₁, .ok outcome)) (hsuccess : outcome.success = true) :
    (order.buildRecorded kind).conduct backend s = (compileRecords order.post outcome.records).conduct backend s₁ := by
  rw [buildRecorded, Program.conduct_framework_ok backend hrun, if_pos hsuccess]

/-- **The records of a framework are compiled in turn.** Where a framework succeeds, bundles are given exactly if
every record is compiled, each on the state that the one before it left; and then there is one bundle for every
record, at its place. It fails exactly if a record does after those before it were compiled: with the failure of
that record, in the state that it left, and the compiler was asked what these records asked of it, in their order,
and nothing else. Which version and which contracts the order asks for makes no difference. -/
theorem records_compiled_in_turn {outcome : FrameworkOutcome}
    (hrun : (backend.framework kind order.folder).result s = (s₁, .ok outcome)) (hsuccess : outcome.success = true) :
    (∀ s' asked bundles, (order.buildRecorded kind).conduct backend s = ⟨s', asked, .ok bundles⟩ ↔
      BuildRecord.InTurn backend order.post outcome.records s₁ s' asked bundles) ∧
    (∀ s' asked bundles, BuildRecord.InTurn backend order.post outcome.records s₁ s' asked bundles →
      bundles.length = outcome.records.length ∧
      ∀ i record, outcome.records[i]? = some record → ∃ bundle s₂ s₃ before own, bundles[i]? = some bundle ∧
        BuildRecord.InTurn backend order.post (outcome.records.take i) s₁ s₂ before (bundles.take i) ∧
        record.Becomes backend order.post s₂ ⟨s₃, own, .ok bundle⟩) ∧
    (∀ s' asked failure, (order.buildRecorded kind).conduct backend s = ⟨s', asked, .error failure⟩ ↔
      ∃ before record rest s₂ done bundles own, outcome.records = before ++ record :: rest ∧
        BuildRecord.InTurn backend order.post before s₁ s₂ done bundles ∧
        record.Becomes backend order.post s₂ ⟨s', own, .error failure⟩ ∧ asked = done ++ own) ∧
    ∀ files, (order.kind files).result backend s = (s, .ok kind) → kind ≠ .folder → kind ∈ order.providers →
      ∀ version selection, ({ order with version, selection }.build files).conduct backend s =
        (order.buildRecorded kind).conduct backend s := by
  rw [conduct_buildRecorded hrun hsuccess]
  refine ⟨fun _ _ _ => conduct_compileRecords_ok_iff, fun _ _ _ h => h.places,
    fun _ _ _ => conduct_compileRecords_error_iff, fun files hkind hframework hprovider version selection => ?_⟩
  rw [← conduct_buildRecorded hrun hsuccess]
  exact conduct_build hkind hframework hprovider

/-! ## A build that ends at its second record -/

/-- A backend that holds nothing and counts what it is told to hold; its framework leaves some records. -/
def forgetful (records : List BuildRecord) : Backend Nat where
  has := fun _ => pure false
  read := fun _ => pure (.object [])
  write := fun _ _ => .change fun n => (n + 1, ())
  invoke := fun _ _ => pure (.object [])
  framework := fun _ _ => pure (.succeeded records)

def soundRecord : BuildRecord := ⟨"0.8.20+commit.a1b2c3d4.Linux.g++", [("sources", .object [])], []⟩

/-- A record of a run that was given no sources. -/
def brokenRecord : BuildRecord := ⟨"0.8.20+commit.a1b2c3d4.Linux.g++", [], []⟩

def threeRecords : List BuildRecord := [soundRecord, brokenRecord, soundRecord]

def recordedOrder : BuildOrder := { project := "hardhat", folder := ⟨1, ["project"]⟩ }

/-- What is asked of the compiler for a sound record. -/
def soundInquiry : Inquiry := ⟨"v0.8.20+commit.a1b2c3d4", .object []⟩

theorem soundRecord_becomes : ∃ bundle, soundRecord.Becomes (forgetful threeRecords) recordedOrder.post 0
    ⟨2, [soundInquiry], .ok bundle⟩ := by
  have hread : CompileRequest.ofJson (.object soundRecord.input) = .ok ⟨"Solidity", [], [], []⟩ := rfl
  have hsource : Json.WellFormed Text.Scalar (.object soundRecord.input) :=
    .singleton (Text.scalar_ofString "sources") .empty
  obtain ⟨key, hkey⟩ := Cache.exists_key (CompileRequest.wellFormed_document Text.scalar_ofString
    (CompileRequest.wellFormed_toJson Text.scalar_ofString hsource hread))
  simp only [BuildRecord.becomes_iff]
  rw [BuildRecord.compile, hread]
  dsimp only
  rw [Program.conduct, CompileRequest.result_compile, CacheState.resolve, hkey]
  exact ⟨_, rfl⟩

/-- The record after the broken one is not looked at, whatever the order asks for. -/
theorem threeRecords_compiled_in_turn :
    ((forgetful threeRecords).framework .hardhat recordedOrder.folder).result 0 = (0, .ok (.succeeded threeRecords)) ∧
    ∃ rejection, ({ recordedOrder with version := some "0.8.20", selection := some (.contract "C") }.build {}).conduct
      (forgetful threeRecords) 0 = ⟨2, [soundInquiry], .error (.requestRejected rejection)⟩ := by
  have hrun : ((forgetful threeRecords).framework .hardhat recordedOrder.folder).result 0 =
      (0, .ok (.succeeded threeRecords)) := rfl
  obtain ⟨-, -, hfails, hbuild⟩ := records_compiled_in_turn hrun rfl
  obtain ⟨bundle, hbundle⟩ := soundRecord_becomes
  refine ⟨hrun, _, (hbuild {} rfl (by decide) (by decide) _ _).trans ((hfails _ _ _).mpr
    ⟨[soundRecord], brokenRecord, [soundRecord], 2, [soundInquiry], [bundle], [], rfl, .next hbundle (.none 2),
      .rejected rfl, rfl⟩)⟩

end BuildOrder

end SolidityBuild
