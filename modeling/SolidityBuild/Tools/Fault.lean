import SolidityBuild.Json.Parser
import SolidityBuild.Text.Lines

/-!
Faults of running the compiler and the tools around it.
-/

set_option autoImplicit false

namespace SolidityBuild

/-- The program that manages compilers. -/
def selectorName : Text := "solc-select"

/-- The compiler. -/
def compilerName : Text := "solc"

/-- Why an invocation of the compiler gave no document. -/
inductive InvocationFault where
  /-- The selector was installed but is in neither place where programs are looked for. -/
  | selectorMissing (scriptsFolder : Text)
  | notFound (program : Text)
  | timedOut (command : List Text)
  | commandFailed (command : List Text) (stderr : Text)
  | compilerFailed (code : Int) (stderr : Text)
  | answerNotJson (fault : Json.SyntaxFault) (stderr : Text)
  | answerNotObject (stderr : Text)
  /-- A fault that a compiler of another kind reports in its own words. -/
  | reported (message stderr : Text)
deriving DecidableEq, Repr

namespace InvocationFault

/-- A command as it is shown. -/
def commandLine (command : List Text) : Text := Text.join " " command

/-- The message about an invocation. -/
def message : InvocationFault → Text
  | selectorMissing scriptsFolder =>
    selectorName ++ " was installed but is neither on PATH nor in " ++ scriptsFolder
  | notFound program => program ++ " executable not found on PATH"
  | timedOut command => "Command timed out: " ++ commandLine command
  | commandFailed command stderr => commandLine command ++ ": " ++ stderr.trim
  | compilerFailed code stderr =>
    compilerName ++ " exited with code " ++ Text.ofInt code ++ ": " ++ stderr.trim
  | answerNotJson fault _ => compilerName ++ " did not print a JSON document: " ++ fault.message
  | answerNotObject _ => compilerName ++ " printed a JSON value that is not an object"
  | reported message _ => message

/-- What the failing command wrote to its error stream. -/
def stderr : InvocationFault → Text
  | commandFailed _ text => text
  | compilerFailed _ text => text
  | answerNotJson _ text => text
  | answerNotObject text => text
  | reported _ text => text
  | _ => []

end InvocationFault

end SolidityBuild
