import SolidityBuild.Tools.Compiler
import SolidityBuild.Proofs.Json.Surrogates
import SolidityBuild.Proofs.Narrated

/-!
Which commands are given when the compiler is run, and what it answers. A computation on the programs at hand
only ever adds to the commands given so far; what holds of every command that its parts give holds of every
command that it gives. Of the commands of an invocation (installing the selector, selecting a version, compiling)
only the last one has the compiler answer a request, and what stands on its input is the text of the request; the
answer is an object that is read from what the command printed.
-/

set_option autoImplicit false

namespace SolidityBuild

/-- The option under which the compiler answers a request on its input. -/
def Command.compileOption : Text := "--standard-json"

/-- Whether a command has the compiler answer a request on its input. -/
def Command.Compiles (c : Command) : Prop := c.arguments.tail = [Command.compileOption]

/-- A world in which what commands print is spelled without surrogates, as what is read from octets is. -/
def Workbench.PrintsScalar (w : Workbench) : Prop :=
  ∀ n c code stdout stderr, w.respond n c = .finished code stdout stderr → stdout.Scalar

/-! ## Computations -/

namespace Task

variable {α β : Type} {P : Command → Prop} {Q : α → Prop} {R : β → Prop}

/-- What a computation does from a workbench: it adds commands to those given so far, all of which have a
property; it does not change how the world answers; and if what the world prints has no surrogates, what the
computation gives has a property. -/
structure GivesFrom (P : Command → Prop) (Q : α → Prop) (x : Task Workbench α) (w : Workbench) : Prop where
  commands : ∃ given, (x.run w).1.history = w.history ++ given ∧ ∀ c ∈ given, P c
  world : (x.run w).1.respond = w.respond
  given : w.PrintsScalar → ∀ a, (x.run w).2.outcome = .ok a → Q a

/-- What a computation does from every workbench. -/
def Gives (P : Command → Prop) (Q : α → Prop) (x : Task Workbench α) : Prop := ∀ w, x.GivesFrom P Q w

theorem gives_ofNarrated {x : Narrated α} (h : ∀ a, x.outcome = .ok a → Q a) :
    (ofNarrated x : Task Workbench α).Gives P Q := fun w =>
  ⟨⟨[], (List.append_nil w.history).symm, fun _ hc => absurd hc List.not_mem_nil⟩, rfl, fun _ => h⟩

theorem gives_pure {a : α} (h : Q a) : (pure a : Task Workbench α).Gives P Q :=
  gives_ofNarrated (x := pure a) fun _ heq => Except.ok.inj heq ▸ h

theorem gives_tell (event : Event) : (tell event : Task Workbench Unit).Gives P fun _ => True :=
  gives_ofNarrated fun _ _ => trivial

/-- Nothing is given by a failure. -/
theorem gives_fail (e : Failure) : (fail e : Task Workbench α).Gives P Q :=
  gives_ofNarrated (x := .ofExcept (.error e)) fun a heq => by cases heq

/-- What a computation goes on with is known to depend on the workbench only in what is asked of it. -/
theorem gives_ask_bind {g : Workbench → α} {f : α → Task Workbench β} (h : ∀ w, (f (g w)).Gives P R) :
    (ask g >>= f).Gives P R := fun w => ⟨(h w w).commands, (h w w).world, (h w w).given⟩

section Bind

variable {x : Task Workbench α} {f : α → Task Workbench β}

/-- The commands of a computation that goes on with another one are those of the first, and then, unless it
failed, those of the second, which is known to start from what the first one gave. -/
theorem Gives.bind_given (hx : x.Gives P Q) (hf : ∀ a, (f a).Gives P fun b => Q a → R b) :
    (x >>= f).Gives P R := by
  intro w
  obtain ⟨⟨given, hhistory, hgiven⟩, hworld, hQ⟩ := hx w
  rcases hrun : x.run w with ⟨w', events, e | a⟩
  · rw [hrun] at hhistory hworld
    refine ⟨⟨given, ?_, hgiven⟩, ?_, ?_⟩
    · rw [run_bind_error hrun, hhistory]
    · rw [run_bind_error hrun, hworld]
    · rw [run_bind_error hrun]
      intro _ b heq
      cases heq
  · rw [hrun] at hhistory hworld hQ
    obtain ⟨⟨more, hhistory', hmore⟩, hworld', hR⟩ := hf a w'
    refine ⟨⟨given ++ more, ?_, List.forall_mem_append.mpr ⟨hgiven, hmore⟩⟩, ?_, ?_⟩
    · rw [run_bind_ok hrun, hhistory', hhistory, List.append_assoc]
    · rw [run_bind_ok hrun, hworld', hworld]
    · rw [run_bind_ok hrun]
      intro hscalar b heq
      have hscalar' : w'.PrintsScalar := by
        rw [Workbench.PrintsScalar, hworld]
        exact hscalar
      exact hR hscalar' b heq (hQ hscalar a rfl)

/-- What the first computation gave may also be unknown. -/
theorem Gives.bind (hx : x.Gives P Q) (hf : ∀ a, (f a).Gives P R) : (x >>= f).Gives P R := by
  refine hx.bind_given fun a w => ?_
  obtain ⟨hcommands, hworld, hR⟩ := hf a w
  exact ⟨hcommands, hworld, fun hscalar b heq _ => hR hscalar b heq⟩

end Bind

end Task

/-! ## Invocations -/

namespace Compiler

variable {P : Command → Prop} {c : Command}

theorem gives_give (hc : P c) : (give c).Gives P fun ended => ended.stdout.Scalar := by
  have hrun : (Task.change fun w : Workbench => w.run c).Gives P fun outcome =>
      ∀ code stdout stderr, outcome = .finished code stdout stderr → stdout.Scalar := by
    intro w
    refine ⟨⟨[c], rfl, List.forall_mem_singleton.mpr hc⟩, rfl, ?_⟩
    rintro hscalar outcome heq code stdout stderr rfl
    exact hscalar w.history.length c code stdout stderr (Except.ok.inj heq)
  refine hrun.bind_given fun outcome => ?_
  cases outcome with
  | finished code stdout stderr => exact Task.gives_pure fun h => h code stdout stderr rfl
  | notFound => exact Task.gives_fail _
  | timedOut => exact Task.gives_fail _

theorem gives_giveChecked (hc : P c) : (giveChecked c).Gives P fun _ => True := by
  refine (gives_give hc).bind fun ended => ?_
  split
  · exact Task.gives_pure trivial
  · exact Task.gives_fail _

theorem gives_ensureSelector {timeLimit : Nat}
    (hinstall : ∀ w : Workbench, P ⟨w.installArguments, timeLimit, none, none⟩) :
    (ensureSelector timeLimit).Gives P fun _ => True := by
  refine Task.gives_ask_bind fun w => ?_
  split
  · exact Task.gives_pure trivial
  · refine (Task.gives_tell _).bind fun _ => Task.gives_ask_bind fun w => ?_
    refine (gives_giveChecked (hinstall w)).bind fun _ => Task.gives_ask_bind fun w => ?_
    split
    · exact Task.gives_pure trivial
    · exact Task.gives_ask_bind fun w => Task.gives_fail _

theorem gives_select {selector version : Text} {timeLimit : Nat}
    (hselect : P ⟨[selector, "use", version, "--always-install"], timeLimit, none, none⟩) :
    (select selector version timeLimit).Gives P fun _ => True := by
  refine (gives_giveChecked hselect).bind fun output => ?_
  split
  · exact Task.gives_pure trivial
  · exact Task.gives_tell _

/-- A report is an object that is read from what was printed. -/
theorem loaded_of_readReport {stdout stderr : Text} {report : Json} (h : readReport stdout stderr = .ok report) :
    ∃ entries, report = .object entries ∧ Json.parse stdout = .ok (.object entries) := by
  rw [readReport] at h
  split at h
  · next entries hparse => exact ⟨entries, (Except.ok.inj h).symm, hparse⟩
  all_goals cases h

/-- What the compiler answers: an object that is read from a text without surrogates. -/
def IsAnswer (report : Json) : Prop :=
  ∃ text entries, report = .object entries ∧ Json.parse text = .ok (.object entries) ∧ text.Scalar

theorem gives_compile {request : Json} {timeLimit : Nat}
    (hcompile : ∀ file, P ⟨[file, Command.compileOption], timeLimit, none, some request.render⟩) :
    (compile request timeLimit).Gives P IsAnswer := by
  refine Task.gives_ask_bind fun w => (gives_give (hcompile _)).bind_given fun ended => ?_
  have hreport : (Task.ofExcept (readReport ended.stdout ended.stderr)).Gives P fun report =>
      ended.stdout.Scalar → IsAnswer report := by
    refine Task.gives_ofNarrated fun report hread hscalar => ?_
    obtain ⟨entries, heq, hparse⟩ := loaded_of_readReport hread
    exact ⟨ended.stdout, entries, heq, hparse, hscalar⟩
  split
  · exact Task.gives_fail _
  · split
    · exact hreport
    · exact (Task.gives_tell _).bind fun _ => hreport

/-- **Every compiling command of an invocation has the text of the request on its input**, and the answer is read
from a text. -/
theorem gives_invoke (version : Text) (request : Json) (timeLimit : Nat) :
    (invoke version request timeLimit).Gives (fun c => c.Compiles → c.input = some request.render) IsAnswer := by
  -- the other commands have more arguments
  have hselector : (ensureSelector timeLimit).Gives (fun c => c.Compiles → c.input = some request.render)
      fun _ => True := gives_ensureSelector fun w h => nomatch List.tail_eq_of_cons_eq h
  have hselect : ∀ selector version, (select selector version timeLimit).Gives
      (fun c => c.Compiles → c.input = some request.render) fun _ => True := fun selector version =>
    gives_select fun h => nomatch List.tail_eq_of_cons_eq h
  have hcompile : (compile request timeLimit).Gives (fun c => c.Compiles → c.input = some request.render)
      IsAnswer := gives_compile fun file _ => rfl
  unfold invoke
  cases Version.scan? version with
  | none =>
    refine (Task.gives_tell _).bind fun _ => hselector.bind fun selector => ?_
    exact hcompile
  | some found =>
    refine (Task.gives_tell _).bind fun _ => hselector.bind fun selector => ?_
    exact (hselect selector found).bind fun _ => hcompile

end Compiler

end SolidityBuild
