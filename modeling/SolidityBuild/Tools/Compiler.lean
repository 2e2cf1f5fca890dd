import SolidityBuild.Json.Printer
import SolidityBuild.Tools.Workbench
import SolidityBuild.Version

/-!
Running the compiler: the selector of compilers is installed if it is not at hand, it selects the version
that was asked for if the text names one, and the compiler answers a request on its input with a report
on its output. The first command that fails ends it all.
-/

set_option autoImplicit false

namespace SolidityBuild

namespace Compiler

/-- The time limit of a command, in seconds, unless one is given. -/
def defaultTimeLimit : Nat := 600

/-- What a command that ended by itself left behind. -/
structure Ended where
  code : Int
  stdout : Text
  stderr : Text

/-- Gives a command; it must be found and end in time. -/
def give (c : Command) : Task Workbench Ended := do
  match ← Task.change fun w : Workbench => w.run c with
  | .finished code stdout stderr => pure ⟨code, stdout, stderr⟩
  | .notFound => .fail (.invocation (.notFound (c.arguments.headD [])))
  | .timedOut => .fail (.invocation (.timedOut c.arguments))

/-- Gives a command that must succeed; the result is its output. -/
def giveChecked (c : Command) : Task Workbench Text := do
  let ended ← give c
  if ended.code = 0 then pure ended.stdout
  else .fail (.invocation (.commandFailed c.arguments ended.stderr))

/-- The file of the selector, which is installed if need be. -/
def ensureSelector (timeLimit : Nat) : Task Workbench Text := do
  match ← Task.ask fun w : Workbench => w.find? selectorName with
  | some file => pure file
  | none =>
    .tell ⟨.info, "installing_solc_select", []⟩
    let arguments ← Task.ask Workbench.installArguments
    let _ ← giveChecked ⟨arguments, timeLimit, none, none⟩
    match ← Task.ask fun w : Workbench => w.find? selectorName with
    | some file => pure file
    | none =>
      let folder ← Task.ask Workbench.scriptsFolder
      .fail (.invocation (.selectorMissing folder))

/-- Selects a version of the compiler. -/
def select (selector version : Text) (timeLimit : Nat) : Task Workbench Unit := do
  let output ← giveChecked ⟨[selector, "use", version, "--always-install"], timeLimit, none, none⟩
  match output.trim with
  | [] => pure ()
  | told => .tell ⟨.debug, "solc_select_output", [("output", .text told)]⟩

/-- The report that the compiler printed. -/
def readReport (stdout stderr : Text) : Except Failure Json :=
  match Json.parse stdout with
  | .ok (.object entries) => .ok (.object entries)
  | .ok _ => .error (.invocation (.answerNotObject stderr))
  | .error (.notJson fault) => .error (.invocation (.answerNotJson fault stderr))
  | .error fault => .error (.unforeseen fault.defect)

/-- Compiles a request with the selected compiler. -/
def compile (request : Json) (timeLimit : Nat) : Task Workbench Json := do
  let file ← Task.ask fun w : Workbench => (w.find? compilerName).getD compilerName
  let ended ← give ⟨[file, "--standard-json"], timeLimit, none, some request.render⟩
  if ended.code ≠ 0 then .fail (.invocation (.compilerFailed ended.code ended.stderr))
  else
    match ended.stderr.trim with
    | [] => pure ()
    | told => .tell ⟨.debug, "compiler_stderr", [("stderr", .text told)]⟩
    .ofExcept (readReport ended.stdout ended.stderr)

/-- Compiles a request with the version of the compiler that a text names, or, if it names none, with
the one that is selected already. -/
def invoke (version : Text) (request : Json) (timeLimit : Nat) : Task Workbench Json := do
  match Version.scan? version with
  | some found => .tell ⟨.info, "compiler_version_found", [("version", .text found)]⟩
  | none => .tell ⟨.warning, "compiler_version_missing", [("compiler_version", .text version)]⟩
  let selector ← ensureSelector timeLimit
  match Version.scan? version with
  | some found => select selector found timeLimit
  | none => pure ()
  compile request timeLimit

end Compiler

end SolidityBuild
