import SolidityBuild.Proofs.Build.Interference
import SolidityBuild.Proofs.Build.Outcomes
import Mathlib.Logic.Function.Basic

/-!
Compilations side by side on one store that nothing locks. Any of them may take its next step at any time, and
any may stop for good; nothing is said of their number or of the order of steps. What is kept from step to step
is the invariant of the shared store, and that what is left of every compilation is safe; so each of them that
comes to its end has the outcome that it has alone.
-/

set_option autoImplicit false

namespace SolidityBuild

open Json

/-! ## Fleets -/

namespace Call

/-- The requests that a call makes. -/
def program (c : Call) : Program Bundle := c.submission.request.compile c.version c.selection c.post

/-- At first a call looks whether its document is recorded. -/
theorem exists_program_eq {c : Call} {k : Text} (hk : c.key = .ok k) :
    ∃ next, c.program = .has (Cache.inputEntry k) next := by
  have hresolve : ∃ next, CacheState.resolve c.document = .has (Cache.inputEntry k) next := by
    rw [CacheState.resolve, show Cache.key c.document = _ from hk]
    exact ⟨_, rfl⟩
  obtain ⟨next, hnext⟩ := hresolve
  exact ⟨_, congrArg (Program.andThen · _) hnext⟩

end Call

/-- What is left of a compilation, unless it has stopped for good. -/
inductive Pipeline where
  | running (rest : Program Bundle)
  | stopped

/-- Compilations side by side, and what they work on. -/
structure Fleet (ι : Type) where
  session : Session
  pipelines : ι → Pipeline

namespace Fleet

variable {ι : Type}

/-- The fleet of calls of which none has taken a step, on an empty store. -/
def start (w : Workshop) (calls : ι → Call) : Fleet ι :=
  ⟨⟨w.emptied, []⟩, fun i => .running (calls i).program⟩

/-- A compilation is at its end, with an outcome. -/
def Ends (f : Fleet ι) (i : ι) (outcome : Except Failure Bundle) : Prop :=
  f.pipelines i = .running (.ofExcept outcome)

section Steps

variable [DecidableEq ι]

/-- The fleet with something else left of one compilation. -/
def set (f : Fleet ι) (i : ι) (session : Session) (p : Pipeline) : Fleet ι :=
  ⟨session, Function.update f.pipelines i p⟩

/-- One step of a fleet: a compilation takes its next step, or stops. -/
inductive Step (calls : ι → Call) (f : Fleet ι) : Fleet ι → Prop where
  | advance {i : ι} {x x' : Program Bundle} {s : Session} (running : f.pipelines i = .running x)
      (step : x.step (Session.backend (calls i).compiler) f.session = some (s, x')) :
      Step calls f (f.set i s (.running x'))
  | stop (i : ι) : Step calls f (f.set i f.session .stopped)

/-- The fleets that may come of one. -/
def Reaches (calls : ι → Call) : Fleet ι → Fleet ι → Prop := Relation.ReflTransGen (Step calls)

theorem pipelines_set_self (f : Fleet ι) (i : ι) (s : Session) (p : Pipeline) :
    (f.set i s p).pipelines i = p := by
  simp only [set, Function.update_self]

theorem pipelines_set_of_ne {i j : ι} (h : j ≠ i) (f : Fleet ι) (s : Session) (p : Pipeline) :
    (f.set i s p).pipelines j = f.pipelines j := by
  simp only [set, Function.update_of_ne h]

/-- A compilation may run to its end without interruption, as it does alone. -/
theorem reaches_set_result (calls : ι → Call) {f : Fleet ι} {i : ι} {x : Program Bundle}
    (h : f.pipelines i = .running x) :
    f.Reaches calls (f.set i (x.result (Session.backend (calls i).compiler) f.session).1
      (.running (.ofExcept (x.result (Session.backend (calls i).compiler) f.session).2))) := by
  have hself : f.set i f.session (.running x) = f := by
    rw [set, ← h, Function.update_eq_self]
  have hsteps : Relation.ReflTransGen (Step calls) (f.set i f.session (.running x)) _ :=
    (Program.steps_result (Session.backend (calls i).compiler) x f.session).lift
      (fun a => f.set i a.1 (.running a.2)) ?_
  · rwa [hself] at hsteps
  · rintro ⟨s, x⟩ ⟨s', x'⟩ hstep
    have hadvance : Step calls (f.set i s (.running x)) _ :=
      .advance (pipelines_set_self f i _ _) hstep
    rwa [set, set, Function.update_idem] at hadvance

/-- A compilation that has not stopped can come to its end while the others stand still. -/
theorem exists_reaches_ends (calls : ι → Call) {f : Fleet ι} {i : ι} {x : Program Bundle}
    (h : f.pipelines i = .running x) : ∃ f' outcome, f.Reaches calls f' ∧ f'.Ends i outcome ∧
      ∀ j, j ≠ i → f'.pipelines j = f.pipelines j :=
  ⟨_, _, reaches_set_result calls h, pipelines_set_self f i _ _, fun _ hj => pipelines_set_of_ne hj f _ _⟩

end Steps

/-! ## What every step keeps -/

/-- The store is that of the compiler, and what is left of every compilation is safe; the outcome that is wanted
of a compilation is made of the answer to its own document. -/
structure Sound (documents : Set Json) (compile : Json → Answer) (calls : ι → Call) (f : Fleet ι) : Prop where
  store : SharedInvariant documents compile f.session.memory
  safe : ∀ i x, f.pipelines i = .running x →
    x.Safe (SharedInvariant documents compile) (calls i).compiler
      (fun outcome _ => outcome = (calls i).bundle (compile (calls i).document).json) f.session.memory

namespace Sound

variable {documents : Set Json} {compile : Json → Answer} {calls : ι → Call} {f f' : Fleet ι}

theorem start (w : Workshop) (hkeys : DecidedByKey documents compile)
    (hmem : ∀ i, (calls i).document ∈ documents)
    (hcompiler : ∀ i d, (calls i).compiler (calls i).version d = .ok (compile d)) :
    (Fleet.start w calls).Sound documents compile calls := by
  refine ⟨.empty, ?_⟩
  intro i x hx
  cases hx
  obtain ⟨k, hk⟩ := (calls i).exists_key
  have hpair : WellFormed Text.PairFree (calls i).document :=
    (calls i).wellFormed_document.mono fun _ => Text.Scalar.pairFree
  exact CompileRequest.safe_compile hkeys (hmem i) hpair hk (hcompiler i) (calls i).selection (calls i).post

/-- **A step keeps a fleet sound.** The compilation that takes it keeps the terms, and all others bear it. -/
theorem step [DecidableEq ι] (h : f.Sound documents compile calls) (hstep : Step calls f f') :
    f'.Sound documents compile calls := by
  cases hstep with
  | @advance i x x' s running step =>
    obtain ⟨hinv, hpersists, hsafe⟩ := (h.safe i x running).step h.store step
    refine ⟨hinv, ?_⟩
    intro j y hy
    by_cases hj : j = i
    · subst hj
      rw [pipelines_set_self] at hy
      cases hy
      exact hsafe
    · rw [pipelines_set_of_ne hj] at hy
      exact (h.safe j y hy).mono hpersists
  | stop i =>
    refine ⟨h.store, ?_⟩
    intro j y hy
    by_cases hj : j = i
    · subst hj
      rw [pipelines_set_self] at hy
      exact nomatch hy
    · rw [pipelines_set_of_ne hj] at hy
      exact h.safe j y hy

/-- The induction is on the steps, in their order. -/
theorem reaches [DecidableEq ι] (h : f.Sound documents compile calls) (hf : f.Reaches calls f') :
    f'.Sound documents compile calls := by
  induction hf with
  | refl => exact h
  | tail _ hstep ih => exact ih.step hstep

/-- A compilation at its end has the outcome that is wanted of it. -/
theorem outcome_eq (h : f.Sound documents compile calls) {i : ι} {outcome : Except Failure Bundle}
    (hends : f.Ends i outcome) : outcome = (calls i).bundle (compile (calls i).document).json := by
  have hsafe := h.safe i _ hends
  cases outcome <;> exact hsafe _ h.store (.refl _)

end Sound

end Fleet

/-! ## Outcomes -/

/-- **Sharing a store without locks is harmless.** However the steps of compilations interleave, and whichever
of them stop on their way: none fails because of the cache; every one that comes to its end has the outcome that
it has alone, on an empty store; and at every moment each answer in the store is the one that the compiler gives
for the document beside it. The compiler answers every document, documents that are equal up to the order of keys
alike, and no two documents collide. -/
theorem Fleet.ends_as_alone {ι : Type} [DecidableEq ι] (w : Workshop) (calls : ι → Call) (compile : Json → Answer)
    (hcompiler : ∀ i d, (calls i).compiler (calls i).version d = .ok (compile d))
    (hcompile : ∀ d e, Json.Reordered d e → compile d = compile e)
    (hdocuments : Cache.Collisionless {d | ∃ i, (calls i).document = d}) {f : Fleet ι}
    (hf : (Fleet.start w calls).Reaches calls f) :
    (∀ i fault, ¬ f.Ends i (.error (.cache fault))) ∧
      (∀ i outcome, f.Ends i outcome → outcome = ((calls i).run w.emptied).outcome) ∧
      ∀ d, f.session.memory.has (Cache.outputEntry d) = true → ∃ document,
        f.session.memory.read (Cache.inputEntry d) = .ok document ∧
          f.session.memory.read (Cache.outputEntry d) = .ok (compile document).json := by
  have hwell : ∀ d ∈ {d | ∃ i, (calls i).document = d}, WellFormed Text.PairFree d := by
    rintro d ⟨i, rfl⟩
    exact (calls i).wellFormed_document.mono fun _ => Text.Scalar.pairFree
  have hkeys := DecidedByKey.of_collisionless hdocuments hwell hcompile
  have hsound := (Sound.start w hkeys (fun i => ⟨i, rfl⟩) hcompiler).reaches hf
  refine ⟨?_, ?_, hsound.store.answered⟩
  · intro i fault hends
    exact (calls i).bundle_ne_cache _ fault (hsound.outcome_eq hends).symm
  · intro i outcome hends
    obtain ⟨k, hk⟩ := (calls i).exists_key
    rw [(Call.run_emptied compile hk (hcompiler i) w).2]
    exact hsound.outcome_eq hends

/-- The two orders of two settings. -/
def switchesCalls (i : Bool) : Call :=
  if i then switchesCall "viaIR" "debug" (by decide) "0.8.20"
  else switchesCall "debug" "viaIR" (by decide) "0.8.20"

theorem switchesCalls_collisionless : Cache.Collisionless {d | ∃ i, (switchesCalls i).document = d} := by
  have halike : Alike Text.Scalar (switchesCalls true).document (switchesCalls false).document :=
    (switchesCall_repeats (by decide) (by decide) (by decide) _ _).documents_alike
  refine .of_reordered halike.left ?_
  rintro d ⟨i, rfl⟩
  cases i with
  | true => exact .refl _
  | false => exact halike.reordered

/-- One of two calls looks whether its document is recorded; then the other one records its own under the same
key and comes to its end; then the first one records its document over it and comes to its end as well. -/
theorem Fleet.ends_as_alone_of_overwriting : ∃ f : Fleet Bool,
    (Fleet.start bareWorkshop switchesCalls).Reaches switchesCalls f ∧
      (∀ i, ∃ outcome, f.Ends i outcome) ∧
      (∀ i fault, ¬ f.Ends i (.error (.cache fault))) ∧
      (∀ i outcome, f.Ends i outcome → outcome = ((switchesCalls i).run bareWorkshop.emptied).outcome) ∧
      ∀ d, f.session.memory.has (Cache.outputEntry d) = true → ∃ document,
        f.session.memory.read (Cache.inputEntry d) = .ok document ∧
          f.session.memory.read (Cache.outputEntry d) = .ok emptyAnswer.json := by
  obtain ⟨k, hk⟩ := (switchesCalls true).exists_key
  obtain ⟨next, hprogram⟩ := Call.exists_program_eq hk
  let f := Fleet.start bareWorkshop switchesCalls
  -- the first step of the one call, the whole run of the other, and the rest of the one
  let f₁ := f.set true f.session (.running (next false))
  have hfirst : f.Reaches switchesCalls f₁ :=
    .single (.advance (i := true) (x := (switchesCalls true).program) rfl (by rw [hprogram]; rfl))
  have hother : f₁.pipelines false = .running (switchesCalls false).program :=
    pipelines_set_of_ne Bool.false_ne_true f _ _
  obtain ⟨f₂, outcome, hsecond, hends, hstill⟩ := exists_reaches_ends switchesCalls hother
  have hrest : f₂.pipelines true = .running (next false) :=
    (hstill true Bool.false_ne_true.symm).trans (pipelines_set_self f true _ _)
  obtain ⟨f₃, outcome', hthird, hends', hstill'⟩ := exists_reaches_ends switchesCalls hrest
  have hreaches : f.Reaches switchesCalls f₃ := (hfirst.trans hsecond).trans hthird
  have hall : ∀ i, ∃ outcome, f₃.Ends i outcome := by
    intro i
    cases i with
    | true => exact ⟨outcome', hends'⟩
    | false => exact ⟨outcome, (hstill' false Bool.false_ne_true).trans hends⟩
  exact ⟨f₃, hreaches, hall, Fleet.ends_as_alone bareWorkshop switchesCalls (fun _ => emptyAnswer)
    (fun i d => by cases i <;> rfl) (fun d e _ => rfl) switchesCalls_collisionless hreaches⟩

end SolidityBuild
