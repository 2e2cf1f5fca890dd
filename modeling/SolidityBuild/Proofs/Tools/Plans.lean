import SolidityBuild.Proofs.Tools.Commands

/-!
What an invocation of the compiler comes to. Which commands it is to give is told by the tools at hand and by the
text that names a version: the selector is installed if it is in neither place where tools are looked for, it
selects the version if the text names one, and the compiler reads the request. These commands are given in turn
until one of them does not succeed, and that one is reported; a report is returned if all of them succeed and the
compiler printed an object.
-/

set_option autoImplicit false

namespace SolidityBuild

/-! ## Plans -/

namespace Workbench

/-- Where a tool is, some tools being in the folder of scripts. A tool on the search path comes first. -/
def located (w : Workbench) (scripts : List Text) (name : Text) : Option Text :=
  (Table.get? w.onPath name).or (if name ∈ scripts then some (w.scriptsFolder ++ "/" ++ name) else none)

theorem find?_eq (w : Workbench) (name : Text) : w.find? name = w.located w.inScripts name := by
  rw [find?, located]
  simp only [List.contains_iff_mem]
  cases Table.get? w.onPath name <;> rfl

/-- The tools in the folder of scripts after the installation of the selector, if it is to be installed. -/
def equipped (w : Workbench) : List Text :=
  if w.located w.inScripts selectorName = none then w.inScripts ++ w.installable else w.inScripts

/-- The file of the selector that an invocation uses, if there is one. -/
def selector? (w : Workbench) : Option Text := w.located w.equipped selectorName

/-- The command that installs the selector. -/
def installation (w : Workbench) (timeLimit : Nat) : Command := ⟨w.installArguments, timeLimit, none, none⟩

/-- The command that selects a version. -/
def selection (w : Workbench) (timeLimit : Nat) (version : Text) : Command :=
  ⟨[w.selector?.getD selectorName, "use", version, "--always-install"], timeLimit, none, none⟩

/-- The command that compiles a request. A compiler that is in neither place is called by its name. -/
def compilation (w : Workbench) (request : Json) (timeLimit : Nat) : Command :=
  ⟨[(w.located w.equipped compilerName).getD compilerName, Command.compileOption], timeLimit, none,
    some request.render⟩

/-- The commands that an invocation is to give before it compiles. -/
def preparation (w : Workbench) (version : Text) (timeLimit : Nat) : List Command :=
  (if w.located w.inScripts selectorName = none then [w.installation timeLimit] else []) ++
    (Version.scan? version).toList.map (w.selection timeLimit)

/-- The commands that an invocation is to give. -/
def plan (w : Workbench) (version : Text) (request : Json) (timeLimit : Nat) : List Command :=
  w.preparation version timeLimit ++ [w.compilation request timeLimit]

end Workbench

/-! ## Ends of commands -/

/-- A command that ends with code zero. -/
def CommandOutcome.Success (outcome : CommandOutcome) : Prop := ∃ stdout stderr, outcome = .finished 0 stdout stderr

namespace Command

instance : DecidablePred Compiles := fun c => inferInstanceAs (Decidable (c.arguments.tail = [compileOption]))

/-- What is reported of a command that ends in another way. -/
def fault (c : Command) : CommandOutcome → InvocationFault
  | .notFound => .notFound (c.arguments.headD [])
  | .timedOut => .timedOut c.arguments
  | .finished code _ stderr =>
    if c.Compiles then .compilerFailed code stderr else .commandFailed c.arguments stderr

end Command

namespace Workbench

variable {w : Workbench}

/-- How a command ends that is given after `count` others. -/
def answer (w : Workbench) (count : Nat) (c : Command) : CommandOutcome := w.respond (w.history.length + count) c

/-- Commands that succeed when they are given one after another. -/
def Succeed (w : Workbench) (commands : List Command) : Prop :=
  ∀ count c, commands[count]? = some c → (w.answer count c).Success

theorem snd_run (w : Workbench) (c : Command) : (w.run c).2 = w.respond w.history.length c := rfl

/-- What comes after a command is answered later. -/
theorem answer_run (w : Workbench) (c : Command) (count : Nat) : (w.run c).1.answer count = w.answer (count + 1) := by
  funext c'
  rw [answer, run, List.length_append, List.length_singleton, Nat.add_assoc, Nat.add_comm 1]
  rfl

theorem succeed_nil (w : Workbench) : w.Succeed [] := fun _ _ h => nomatch h

/-- The first of some commands succeeds, and then the others do. -/
theorem succeed_cons {c : Command} {rest : List Command} (hc : (w.respond w.history.length c).Success)
    (hrest : (w.run c).1.Succeed rest) : w.Succeed (c :: rest) := by
  intro count c' hc'
  cases count with
  | zero =>
    obtain rfl : c = c' := Option.some.inj hc'
    exact hc
  | succ count =>
    rw [← answer_run]
    exact hrest count c' hc'

/-- Commands of which one does not succeed. -/
theorem not_succeed_of_stopped {commands earlier later : List Command} {c : Command}
    (h : earlier ++ c :: later <+: commands) (hfailed : ¬ (w.answer earlier.length c).Success) :
    ¬ w.Succeed commands := by
  intro hsucceed
  obtain ⟨rest, rfl⟩ := h
  refine hfailed (hsucceed earlier.length c ?_)
  rw [List.append_assoc, List.getElem?_append_right (Nat.le_refl _), Nat.sub_self]
  rfl

theorem not_succeed_concat {earlier : List Command} {c : Command}
    (hfailed : ¬ (w.answer earlier.length c).Success) : ¬ w.Succeed (earlier ++ [c]) :=
  not_succeed_of_stopped List.prefix_rfl hfailed

end Workbench

/-! ## Commands in turn -/

namespace Compiler

variable {w : Workbench} {c : Command} {timeLimit : Nat}

/-- What comes of a command that must succeed. -/
def judge (c : Command) : CommandOutcome → Except Failure Ended
  | .finished code stdout stderr =>
    if code = 0 then .ok ⟨code, stdout, stderr⟩ else .error (.invocation (c.fault (.finished code stdout stderr)))
  | .notFound => .error (.invocation (c.fault .notFound))
  | .timedOut => .error (.invocation (c.fault .timedOut))

theorem judge_cases (c : Command) (outcome : CommandOutcome) :
    (∃ stdout stderr, outcome = .finished 0 stdout stderr ∧ judge c outcome = .ok ⟨0, stdout, stderr⟩) ∨
      ¬ outcome.Success ∧ judge c outcome = .error (.invocation (c.fault outcome)) := by
  cases outcome with
  | finished code stdout stderr =>
    by_cases hcode : code = 0
    · subst hcode
      exact .inl ⟨stdout, stderr, rfl, rfl⟩
    · refine .inr ⟨?_, if_neg hcode⟩
      rintro ⟨_, _, heq⟩
      exact hcode (CommandOutcome.finished.inj heq).1
  | notFound => exact .inr ⟨fun ⟨_, _, heq⟩ => (nomatch heq), rfl⟩
  | timedOut => exact .inr ⟨fun ⟨_, _, heq⟩ => (nomatch heq), rfl⟩

/-- Gives a command that must succeed. -/
def attempt (c : Command) (w : Workbench) : Workbench × Except Failure Ended :=
  ((w.run c).1, judge c (w.respond w.history.length c))

theorem attempt_cases (c : Command) (w : Workbench) :
    (∃ stdout stderr, w.respond w.history.length c = .finished 0 stdout stderr ∧
      attempt c w = ((w.run c).1, .ok ⟨0, stdout, stderr⟩)) ∨
    ¬ (w.respond w.history.length c).Success ∧
      attempt c w = ((w.run c).1, .error (.invocation (c.fault (w.respond w.history.length c)))) := by
  rw [attempt]
  rcases judge_cases c (w.respond w.history.length c) with ⟨stdout, stderr, hanswer, hjudge⟩ | ⟨hnot, hjudge⟩
  · exact .inl ⟨stdout, stderr, hanswer, by rw [hjudge]⟩
  · exact .inr ⟨hnot, by rw [hjudge]⟩

/-- Gives commands one after another, all of which must succeed; the result is what the last one left behind. -/
def carryOut (last : Command) : List Command → Workbench → Workbench × Except Failure Ended
  | [] => attempt last
  | c :: rest => fun w => follow (attempt c w) fun _ => carryOut last rest

theorem carryOut_nil (last : Command) (w : Workbench) : carryOut last [] w = attempt last w := rfl

theorem carryOut_cons (last : Command) (c : Command) (rest : List Command) (w : Workbench) :
    carryOut last (c :: rest) w = follow (attempt c w) fun _ => carryOut last rest := rfl

/-- How it goes to carry out commands from a workbench: all of them succeed, or one is the first that does not. -/
inductive Carried (w : Workbench) (commands : List Command) : Workbench × Except Failure Ended → Prop where
  | completed {w' : Workbench} {ended : Ended} {before : List Command} {last : Command}
      (split : commands = before ++ [last]) (history : w'.history = w.history ++ commands)
      (succeeded : w.Succeed commands)
      (answer : w.answer before.length last = .finished 0 ended.stdout ended.stderr) :
      Carried w commands (w', .ok ended)
  | stopped {w' : Workbench} {earlier later : List Command} {c : Command} (split : commands = earlier ++ c :: later)
      (history : w'.history = w.history ++ (earlier ++ [c])) (succeeded : w.Succeed earlier)
      (failed : ¬ (w.answer earlier.length c).Success) :
      Carried w commands (w', .error (.invocation (c.fault (w.answer earlier.length c))))

/-- What is carried out after a command that succeeded is carried out together with it. -/
theorem Carried.cons {r : Workbench × Except Failure Ended} {commands : List Command}
    (hc : (w.respond w.history.length c).Success) (h : Carried (w.run c).1 commands r) :
    Carried w (c :: commands) r := by
  have hhistory : ∀ more, (w.run c).1.history ++ more = w.history ++ c :: more := fun more =>
    List.append_assoc w.history [c] more
  cases h with
  | @completed _ _ before last split history succeeded answer =>
    rw [Workbench.answer_run] at answer
    have hsplit : c :: commands = (c :: before) ++ [last] := congrArg (c :: ·) split
    exact .completed hsplit (history.trans (hhistory _)) (Workbench.succeed_cons hc succeeded) answer
  | @stopped _ earlier later c' split history succeeded failed =>
    rw [Workbench.answer_run] at failed ⊢
    have hsplit : c :: commands = (c :: earlier) ++ c' :: later := congrArg (c :: ·) split
    exact .stopped hsplit (history.trans (hhistory _)) (Workbench.succeed_cons hc succeeded) failed

/-- **Commands are carried out in turn, up to the first that does not succeed.** -/
theorem carried_carryOut (last : Command) (before : List Command) (w : Workbench) :
    Carried w (before ++ [last]) (carryOut last before w) := by
  induction before generalizing w with
  | nil =>
    rw [carryOut_nil]
    rcases attempt_cases last w with ⟨stdout, stderr, hanswer, hattempt⟩ | ⟨hnot, hattempt⟩
    · rw [hattempt]
      exact .completed (Eq.refl ([] ++ [last])) rfl
        (Workbench.succeed_cons ⟨_, _, hanswer⟩ (Workbench.succeed_nil _)) hanswer
    · rw [hattempt]
      exact .stopped (List.nil_append _).symm rfl (Workbench.succeed_nil w) hnot
  | cons c rest ih =>
    rw [carryOut_cons]
    rcases attempt_cases c w with ⟨stdout, stderr, hanswer, hattempt⟩ | ⟨hnot, hattempt⟩
    · rw [hattempt, follow_ok]
      exact (ih (w.run c).1).cons ⟨_, _, hanswer⟩
    · rw [hattempt]
      exact .stopped (List.nil_append _).symm rfl (Workbench.succeed_nil w) hnot

/-- A command that ends by itself leaves something behind, and another one is reported. -/
theorem result_give (c : Command) (w : Workbench) : (give c).result w =
    ((w.run c).1, match w.respond w.history.length c with
      | .finished code stdout stderr => .ok ⟨code, stdout, stderr⟩
      | .notFound => .error (.invocation (c.fault .notFound))
      | .timedOut => .error (.invocation (c.fault .timedOut))) := by
  rw [give, Task.result_bind, Task.result_change, follow_ok, Workbench.snd_run]
  cases w.respond w.history.length c <;> rfl

theorem result_giveChecked (hc : ¬ c.Compiles) (w : Workbench) : (giveChecked c).result w =
    follow (attempt c w) fun ended w' => (w', .ok ended.stdout) := by
  rw [giveChecked, Task.result_bind, result_give, attempt]
  cases w.respond w.history.length c with
  | finished code stdout stderr =>
    have hfault : c.fault (.finished code stdout stderr) = .commandFailed c.arguments stderr := if_neg hc
    rw [judge, hfault]
    dsimp only [follow]
    split_ifs <;> rfl
  | notFound => rfl
  | timedOut => rfl

theorem result_select (selector version : Text) (timeLimit : Nat) (w : Workbench) :
    (select selector version timeLimit).result w =
      follow (attempt ⟨[selector, "use", version, "--always-install"], timeLimit, none, none⟩ w) fun _ w' =>
        (w', .ok ()) := by
  have hc : ¬ Command.Compiles ⟨[selector, "use", version, "--always-install"], timeLimit, none, none⟩ :=
    fun h => nomatch List.tail_eq_of_cons_eq h
  rw [select, Task.result_bind, result_giveChecked hc, follow_assoc]
  refine follow_congr _ fun ended w' => ?_
  rw [follow_ok]
  split <;> rfl

/-- The compiler reports what it printed, if it succeeds. -/
theorem result_compile (request : Json) (timeLimit : Nat) (w : Workbench) :
    (compile request timeLimit).result w =
      follow (attempt ⟨[(w.find? compilerName).getD compilerName, Command.compileOption], timeLimit, none,
        some request.render⟩ w) fun ended w' => (w', readReport ended.stdout ended.stderr) := by
  rw [compile, ← Command.compileOption, Task.result_bind, Task.result_ask, follow_ok, Task.result_bind, result_give,
    attempt]
  generalize hcommand : Command.mk [_, _] _ _ _ = c
  have hc : c.Compiles := by
    rw [← hcommand]
    rfl
  cases w.respond w.history.length c with
  | finished code stdout stderr =>
    have hfault : c.fault (.finished code stdout stderr) = .compilerFailed code stderr := if_pos hc
    rw [judge, hfault]
    dsimp only [follow]
    by_cases hcode : code = 0
    · rw [if_pos hcode, if_neg (not_not_intro hcode)]
      split <;> rfl
    · rw [if_neg hcode, if_pos hcode]
      rfl
  | notFound => rfl
  | timedOut => rfl

/-! ## Invocations -/

/-- A workbench after the selector was asked for on another one. -/
structure Equips (w w' : Workbench) : Prop where
  onPath : w'.onPath = w.onPath
  scriptsFolder : w'.scriptsFolder = w.scriptsFolder
  inScripts : w'.inScripts = w.equipped

theorem Equips.find? {w' : Workbench} (h : Equips w w') (name : Text) : w'.find? name = w.located w.equipped name := by
  rw [Workbench.find?_eq, Workbench.located, Workbench.located, h.onPath, h.scriptsFolder, h.inScripts]

/-- A selector that is at hand need not be installed. -/
theorem equips_self (h : w.located w.inScripts selectorName ≠ none) : Equips w w :=
  ⟨rfl, rfl, (if_neg h).symm⟩

/-- An installation adds what it can add, if it succeeds. -/
theorem equips_installed (h : w.located w.inScripts selectorName = none)
    (hsuccess : (w.respond w.history.length (w.installation timeLimit)).Success) :
    Equips w (w.run (w.installation timeLimit)).1 := by
  obtain ⟨stdout, stderr, hanswer⟩ := hsuccess
  refine ⟨rfl, rfl, ?_⟩
  have hinstalls : w.installs (w.installation timeLimit) (.finished 0 stdout stderr) = true := by
    rw [Workbench.installs, Workbench.installation]
    simp
  rw [Workbench.equipped, if_pos h, Workbench.run, hanswer, hinstalls]
  rfl

/-- The selection of a version adds nothing. -/
theorem Equips.selected {w' : Workbench} (h : Equips w w') (version : Text) :
    Equips w (w'.run (w.selection timeLimit version)).1 := by
  refine ⟨h.onPath, h.scriptsFolder, ?_⟩
  have hinstalls : ∀ outcome, w'.installs (w.selection timeLimit version) outcome = false := by
    intro outcome
    cases outcome with
    | finished code _ _ =>
      rw [Workbench.installs, Workbench.selection, Workbench.installArguments]
      simp
    | notFound | timedOut => rfl
  rw [← h.inScripts, Workbench.run, hinstalls]
  rfl

theorem result_ensureSelector_of_found {file : Text} (h : w.find? selectorName = some file) :
    (ensureSelector timeLimit).result w = (w, .ok file) := by
  rw [ensureSelector, Task.result_bind, Task.result_ask, follow_ok, h]
  rfl

theorem result_ensureSelector_of_missing (h : w.find? selectorName = none) :
    (ensureSelector timeLimit).result w = follow (attempt (w.installation timeLimit) w) fun _ w' =>
      (w', match w'.find? selectorName with
        | some file => .ok file
        | none => .error (.invocation (.selectorMissing w'.scriptsFolder))) := by
  have hc : ¬ (w.installation timeLimit).Compiles := fun h => nomatch List.tail_eq_of_cons_eq h
  rw [ensureSelector, Task.result_bind, Task.result_ask, follow_ok, h]
  dsimp only
  rw [Task.result_bind, Task.result_tell, follow_ok, Task.result_bind, Task.result_ask, follow_ok, Task.result_bind]
  change follow ((giveChecked (w.installation timeLimit)).result w) _ = _
  rw [result_giveChecked hc, follow_assoc]
  refine follow_congr _ fun ended w' => ?_
  rw [follow_ok, Task.result_bind, Task.result_ask, follow_ok]
  cases w'.find? selectorName <;> rfl

/-- What an invocation does with the selector at hand: it selects the version that is named, and compiles. -/
def compileSelected (selector version : Text) (request : Json) (timeLimit : Nat) : Task Workbench Json := do
  match Version.scan? version with
  | some found => select selector found timeLimit
  | none => pure ()
  compile request timeLimit

theorem result_compileSelected {w' : Workbench} {selector : Text} (h : Equips w w')
    (hselector : w.selector? = some selector) (version : Text) (request : Json) :
    (compileSelected selector version request timeLimit).result w' =
    follow (carryOut (w.compilation request timeLimit)
      ((Version.scan? version).toList.map (w.selection timeLimit)) w') fun ended w'' =>
        (w'', readReport ended.stdout ended.stderr) := by
  rw [compileSelected]
  cases Version.scan? version with
  | none =>
    dsimp only [Option.toList, List.map]
    rw [result_compile, h.find?]
    rfl
  | some found =>
    have hselection : w.selection timeLimit found =
        ⟨[selector, "use", found, "--always-install"], timeLimit, none, none⟩ := by
      rw [Workbench.selection, hselector]
      rfl
    dsimp only [Option.toList, List.map]
    rw [Task.result_bind, result_select, ← hselection, follow_assoc, carryOut_cons, follow_assoc]
    rcases attempt_cases (w.selection timeLimit found) w' with ⟨stdout, stderr, -, hattempt⟩ | ⟨-, hattempt⟩
    · rw [hattempt, follow_ok, follow_ok, follow_ok, result_compile, (h.selected found).find?]
      rfl
    · rw [hattempt]
      rfl

/-- The selector is asked for before anything else. -/
theorem result_invoke_eq (w : Workbench) (version : Text) (request : Json) (timeLimit : Nat) :
    (invoke version request timeLimit).result w = follow ((ensureSelector timeLimit).result w) fun selector =>
      (compileSelected selector version request timeLimit).result := by
  unfold invoke compileSelected
  cases Version.scan? version with
  | none | some found =>
    dsimp only
    rw [Task.result_bind, Task.result_tell, follow_ok, Task.result_bind]

/-- **An invocation carries out its plan**: it gives the commands in turn and reads what the last one printed. Only
where the selector is missing after its installation it ends there. -/
theorem result_invoke (w : Workbench) (version : Text) (request : Json) (timeLimit : Nat) :
    (invoke version request timeLimit).result w =
      if w.selector? = none then follow (attempt (w.installation timeLimit) w) fun _ w' =>
        (w', .error (.invocation (.selectorMissing w.scriptsFolder)))
      else follow (carryOut (w.compilation request timeLimit) (w.preparation version timeLimit) w) fun ended w' =>
        (w', readReport ended.stdout ended.stderr) := by
  rw [result_invoke_eq, Workbench.preparation]
  by_cases hmissing : w.located w.inScripts selectorName = none
  · rw [if_pos hmissing, result_ensureSelector_of_missing ((w.find?_eq selectorName).trans hmissing), follow_assoc]
    rcases attempt_cases (w.installation timeLimit) w with ⟨stdout, stderr, hanswer, hattempt⟩ | ⟨-, hattempt⟩
    · have hequips := equips_installed hmissing ⟨stdout, stderr, hanswer⟩
      rw [List.singleton_append, carryOut_cons, hattempt, follow_ok, follow_ok, follow_ok, hequips.find?,
        ← Workbench.selector?]
      cases hselector : w.selector? with
      | none => rfl
      | some selector => exact result_compileSelected hequips hselector version request
    · rw [List.singleton_append, carryOut_cons, hattempt]
      split_ifs <;> rfl
  · obtain ⟨selector, hselector⟩ := Option.ne_none_iff_exists'.mp hmissing
    have hequips := equips_self hmissing
    have hselector' : w.selector? = some selector := by
      rw [Workbench.selector?, ← hequips.find?, w.find?_eq, hselector]
    rw [if_neg hmissing, List.nil_append, hselector', if_neg (Option.some_ne_none selector),
      result_ensureSelector_of_found ((w.find?_eq selectorName).trans hselector), follow_ok]
    exact result_compileSelected hequips hselector' version request

/-! ## How an invocation goes -/

section Courses

variable {version : Text} {request : Json} {stdout stderr : Text}

/-- What the compiler prints for an invocation, if it ends with code zero. -/
def Printed (w : Workbench) (version : Text) (request : Json) (timeLimit : Nat) (stdout stderr : Text) : Prop :=
  w.answer (w.preparation version timeLimit).length (w.compilation request timeLimit) = .finished 0 stdout stderr

/-- All commands of an invocation succeed, the selector is at hand, and this is what the compiler prints. -/
structure Answered (w : Workbench) (version : Text) (request : Json) (timeLimit : Nat) (stdout stderr : Text) :
    Prop where
  selector : w.selector? ≠ none
  succeeded : w.Succeed (w.plan version request timeLimit)
  printed : Printed w version request timeLimit stdout stderr

/-- A compiler prints one thing. -/
theorem Answered.unique {stdout' stderr' : Text} (h : Answered w version request timeLimit stdout stderr)
    (h' : Answered w version request timeLimit stdout' stderr') : stdout = stdout' ∧ stderr = stderr' :=
  (CommandOutcome.finished.inj (h.printed.symm.trans h'.printed)).2

/-- How an invocation goes: it stops at a command of its plan, it installs a selector in vain, or it is answered. -/
inductive Course (w : Workbench) (version : Text) (request : Json) (timeLimit : Nat) :
    Workbench × Except Failure Json → Prop where
  | stopped {w' : Workbench} {earlier later : List Command} {c : Command}
      (split : earlier ++ c :: later <+: w.plan version request timeLimit)
      (history : w'.history = w.history ++ (earlier ++ [c])) (succeeded : w.Succeed earlier)
      (failed : ¬ (w.answer earlier.length c).Success) :
      Course w version request timeLimit (w', .error (.invocation (c.fault (w.answer earlier.length c))))
  | missing {w' : Workbench} (selector : w.selector? = none)
      (history : w'.history = w.history ++ [w.installation timeLimit])
      (succeeded : w.Succeed [w.installation timeLimit]) :
      Course w version request timeLimit (w', .error (.invocation (.selectorMissing w.scriptsFolder)))
  | answered {w' : Workbench} {stdout stderr : Text}
      (history : w'.history = w.history ++ w.plan version request timeLimit)
      (answered : Answered w version request timeLimit stdout stderr) :
      Course w version request timeLimit (w', readReport stdout stderr)

/-- A selector that is missing after its installation was missing before. -/
theorem installation_prefix_plan (h : w.selector? = none) (version : Text) (request : Json) :
    [w.installation timeLimit] <+: w.plan version request timeLimit := by
  have hmissing : w.located w.inScripts selectorName = none := by
    by_contra hfound
    rw [Workbench.selector?, Workbench.equipped, if_neg hfound] at h
    exact hfound h
  rw [Workbench.plan, Workbench.preparation, if_pos hmissing, List.append_assoc]
  exact List.prefix_append _ _

theorem course_invoke (w : Workbench) (version : Text) (request : Json) (timeLimit : Nat) :
    Course w version request timeLimit ((invoke version request timeLimit).result w) := by
  rw [result_invoke]
  split_ifs with hselector
  · have hcarried := carried_carryOut (w.installation timeLimit) [] w
    rw [carryOut_nil] at hcarried
    generalize attempt (w.installation timeLimit) w = r at hcarried
    cases hcarried with
    | completed _ history succeeded _ => exact .missing hselector history succeeded
    | stopped split history succeeded failed =>
      have hplanned : [w.installation timeLimit] <+: w.plan version request timeLimit :=
        installation_prefix_plan hselector version request
      rw [show [w.installation timeLimit] = _ from split] at hplanned
      exact .stopped hplanned history succeeded failed
  · have hcarried := carried_carryOut (w.compilation request timeLimit) (w.preparation version timeLimit) w
    generalize carryOut (w.compilation request timeLimit) (w.preparation version timeLimit) w = r at hcarried
    cases hcarried with
    | completed split history succeeded answer =>
      obtain ⟨rfl, rfl⟩ := List.append_singleton_inj.mp split
      exact .answered history ⟨hselector, succeeded, answer⟩
    | @stopped _ earlier later c split history succeeded failed =>
      have hsplit : earlier ++ c :: later <+: w.plan version request timeLimit := by
        rw [← split]
        exact List.prefix_rfl
      exact .stopped hsplit history succeeded failed

end Courses

/-! ## What an invocation owes to its plan -/

/-- What an invocation that gave the commands `attempted` and ended with an outcome owes to its plan. -/
structure FollowsPlan (w : Workbench) (version : Text) (request : Json) (timeLimit : Nat) (attempted : List Command)
    (outcome : Except Failure Json) : Prop where
  planned : attempted <+: w.plan version request timeLimit
  /-- Only the last command may not have succeeded. -/
  stopped : ∀ earlier last, attempted = earlier ++ [last] → w.Succeed earlier
  limited : ∀ c ∈ attempted, c.timeLimit = timeLimit
  returned : ∀ report, outcome = .ok report ↔ attempted = w.plan version request timeLimit ∧ w.Succeed attempted ∧
    w.selector? ≠ none ∧ ∃ stdout stderr entries, Printed w version request timeLimit stdout stderr ∧
      Json.parse stdout = .ok (.object entries) ∧ report = .object entries
  /-- A command that did not succeed is reported. -/
  reported : ∀ earlier last, attempted = earlier ++ [last] → ¬ (w.answer earlier.length last).Success →
    outcome = .error (.invocation (last.fault (w.answer earlier.length last)))
  /-- As long as commands succeed it goes on, unless the selector is missing. -/
  complete : w.Succeed attempted → attempted = w.plan version request timeLimit ∧ w.selector? ≠ none ∨
    w.selector? = none ∧ attempted = [w.installation timeLimit] ∧
      outcome = .error (.invocation (.selectorMissing w.scriptsFolder))

section FollowsPlan

variable {version : Text} {request : Json} {stdout stderr : Text}

theorem timeLimit_of_mem_plan (h : c ∈ w.plan version request timeLimit) : c.timeLimit = timeLimit := by
  rw [Workbench.plan, Workbench.preparation, List.mem_append, List.mem_append, List.mem_singleton, List.mem_map] at h
  rcases h with (h | ⟨found, -, rfl⟩) | rfl
  · split_ifs at h
    · rw [List.mem_singleton.mp h]
      rfl
    · cases h
  · rfl
  · rfl

theorem FollowsPlan.of_stopped {earlier later : List Command}
    (hsplit : earlier ++ c :: later <+: w.plan version request timeLimit) (hsucceed : w.Succeed earlier)
    (hfailed : ¬ (w.answer earlier.length c).Success) : FollowsPlan w version request timeLimit (earlier ++ [c])
      (.error (.invocation (c.fault (w.answer earlier.length c)))) := by
  have hplanned : earlier ++ [c] <+: w.plan version request timeLimit := by
    refine List.IsPrefix.trans ⟨later, ?_⟩ hsplit
    rw [List.append_assoc, List.singleton_append]
  have hnot := Workbench.not_succeed_concat hfailed
  constructor
  case planned => exact hplanned
  case stopped =>
    intro earlier' last heq
    obtain ⟨rfl, -⟩ := List.append_singleton_inj.mp heq
    exact hsucceed
  case limited => exact fun c' hc' => timeLimit_of_mem_plan (hplanned.subset hc')
  case returned => exact fun report => iff_of_false (fun heq => by cases heq) fun ⟨_, hall, _⟩ => hnot hall
  case reported =>
    intro earlier' last heq _
    obtain ⟨rfl, rfl⟩ := List.append_singleton_inj.mp heq
    rfl
  case complete => exact fun hall => (hnot hall).elim

theorem FollowsPlan.of_missing (hselector : w.selector? = none) (hsucceed : w.Succeed [w.installation timeLimit]) :
    FollowsPlan w version request timeLimit [w.installation timeLimit]
      (.error (.invocation (.selectorMissing w.scriptsFolder))) := by
  constructor
  case planned => exact installation_prefix_plan hselector version request
  case stopped =>
    intro earlier last heq
    obtain ⟨rfl, -⟩ := List.append_singleton_inj.mp ((List.nil_append _).trans heq)
    exact w.succeed_nil
  case limited =>
    intro c hc
    rw [List.mem_singleton.mp hc]
    rfl
  case returned =>
    exact fun report => iff_of_false (fun heq => by cases heq) fun ⟨_, _, hfound, _⟩ => hfound hselector
  case reported =>
    intro earlier last heq hfailed
    rw [heq] at hsucceed
    exact (Workbench.not_succeed_concat hfailed hsucceed).elim
  case complete => exact fun _ => .inr ⟨hselector, rfl, rfl⟩

theorem FollowsPlan.of_answered (h : Answered w version request timeLimit stdout stderr) :
    FollowsPlan w version request timeLimit (w.plan version request timeLimit) (readReport stdout stderr) := by
  constructor
  case planned => exact List.prefix_rfl
  case stopped =>
    intro earlier last heq count c hc
    refine h.succeeded count c ?_
    rw [heq, List.getElem?_append_left (List.getElem?_eq_some_iff.mp hc).1]
    exact hc
  case limited => exact fun c hc => timeLimit_of_mem_plan hc
  case returned =>
    intro report
    constructor
    · intro heq
      obtain ⟨entries, hreport, hparse⟩ := loaded_of_readReport heq
      exact ⟨rfl, h.succeeded, h.selector, stdout, stderr, entries, h.printed, hparse, hreport⟩
    · rintro ⟨-, -, -, stdout', stderr', entries, hprinted, hparse, rfl⟩
      obtain ⟨-, rfl, rfl⟩ := CommandOutcome.finished.inj (h.printed.symm.trans hprinted)
      rw [readReport, hparse]
  case reported =>
    intro earlier last heq hfailed
    have hall := h.succeeded
    rw [heq] at hall
    exact (Workbench.not_succeed_concat hfailed hall).elim
  case complete => exact fun _ => .inl ⟨rfl, h.selector⟩

end FollowsPlan

/-- **An invocation gives the commands of its plan in turn, stops at the first that does not succeed and reports it**,
and it returns what the compiler printed exactly if all of them succeeded and that is an object. -/
theorem invoke_follows_plan (w : Workbench) (version : Text) (request : Json) (timeLimit : Nat) :
    ∃ attempted, ((invoke version request timeLimit).result w).1.history = w.history ++ attempted ∧
      FollowsPlan w version request timeLimit attempted ((invoke version request timeLimit).result w).2 := by
  have hcourse := course_invoke w version request timeLimit
  generalize (invoke version request timeLimit).result w = r at hcourse ⊢
  cases hcourse with
  | stopped split history succeeded failed => exact ⟨_, history, .of_stopped split succeeded failed⟩
  | missing selector history succeeded => exact ⟨_, history, .of_missing selector succeeded⟩
  | answered history answered => exact ⟨_, history, .of_answered answered⟩

end Compiler

end SolidityBuild
