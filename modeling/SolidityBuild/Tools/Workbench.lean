import SolidityBuild.Json.Basic
import SolidityBuild.Narrated

/-!
The programs at hand and the commands that are given to them. A program is looked for on the search path
and then in the folder of installed scripts; what an installation adds turns up in that folder once the
installation has succeeded. How a command ends is up to the world, which may answer every command anew.
-/

set_option autoImplicit false

namespace SolidityBuild

/-- A command: a program with arguments, a time limit in seconds, perhaps a folder to run in and a text
on its input. -/
structure Command where
  arguments : List Text
  timeLimit : Nat
  folder : Option Text := none
  input : Option Text := none
deriving DecidableEq, Repr

/-- How a command ends. -/
inductive CommandOutcome where
  | notFound
  | timedOut
  | finished (code : Int) (stdout stderr : Text)
deriving DecidableEq, Repr

/-- The programs at hand, and the commands given so far. -/
structure Workbench where
  /-- The programs on the search path, with the file of each. -/
  onPath : Table Text
  scriptsFolder : Text
  /-- The programs in the folder of scripts. -/
  inScripts : List Text
  /-- The program that installs others. -/
  installer : Text
  /-- The programs that an installation adds. -/
  installable : List Text
  /-- How the world answers a command, given how many came before it. -/
  respond : Nat → Command → CommandOutcome
  history : List Command := []

namespace Workbench

/-- The file of a program. -/
def find? (w : Workbench) (name : Text) : Option Text :=
  match Table.get? w.onPath name with
  | some file => some file
  | none =>
    if w.inScripts.contains name then some (w.scriptsFolder ++ "/" ++ name) else none

/-- The command that installs the selector of compilers. -/
def installArguments (w : Workbench) : List Text :=
  [w.installer, "-m", "pip", "install", selectorName]

/-- Whether a command that ended so has installed something. -/
def installs (w : Workbench) (c : Command) : CommandOutcome → Bool
  | .finished code _ _ => c.arguments = w.installArguments && code = 0
  | _ => false

/-- Gives a command. -/
def run (w : Workbench) (c : Command) : Workbench × CommandOutcome :=
  let outcome := w.respond w.history.length c
  let inScripts := if w.installs c outcome then w.inScripts ++ w.installable else w.inScripts
  ({ w with history := w.history ++ [c], inScripts }, outcome)

end Workbench

end SolidityBuild
