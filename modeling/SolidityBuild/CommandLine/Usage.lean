import SolidityBuild.CommandLine.Arguments
import SolidityBuild.Project.Kind

/-!
The commands: what each of them takes, how it is explained, and how a line of arguments is read as one
of them. An option with an empty value is as good as absent.
-/

set_option autoImplicit false

namespace SolidityBuild

/-- The arguments of the command that builds. -/
structure BuildArguments where
  folder : Text
  project : Option Text := none
  version : Option Text := none
  contract : Option Text := none
  cacheFolder : Option Text := none
  output : Option Text := none
  verbose : Bool := false
deriving DecidableEq, Repr

/-- What a line of arguments asks for. -/
inductive Request where
  /-- A text to be shown. -/
  | explain (text : Text)
  | detect (folder : Text)
  | build (arguments : BuildArguments)
  /-- Arguments that cannot be read: how the command is used, its name, and what is wrong. -/
  | misused (usage name : Text) (fault : UsageFault)
deriving DecidableEq, Repr

namespace Usage

/-- The name of the program, and of its commands in messages. -/
def program : Text := "solbuild"
def detectName : Text := "detect"
def buildName : Text := "build"

/-- How the program is used. -/
def programUsage : Text := "usage: solbuild [-h] COMMAND ...\n"

def detectUsage : Text := "usage: solbuild detect [-h] [directory]\n"

def buildUsage : Text :=
  "usage: solbuild build [-h] [--project \x7bauto,hardhat,forge,solidity_folder\x7d]
                      [--compiler-version COMPILER_VERSION]
                      [--contract CONTRACT] [--cache-dir CACHE_DIR]
                      [--output OUTPUT] [--verbose]
                      [directory]
"

/-- The explanation of the program. -/
def programHelp : Text :=
  programUsage ++ "
Solbuild - cached Solidity compilation and artifact extraction

positional arguments:
  COMMAND
    detect    Print the detected project type
    build     Compile a project and print its artifacts as JSON

options:
  -h, --help  show this help message and exit
"

def detectHelp : Text :=
  detectUsage ++ "
Detect whether a directory is a Foundry, Hardhat, or plain Solidity project.

positional arguments:
  directory   Project directory (default: current directory)

options:
  -h, --help  show this help message and exit
"

def buildHelp : Text :=
  buildUsage ++ "
Compile all sources of a project and print the normalized build results.

positional arguments:
  directory             Project directory (default: current directory)

options:
  -h, --help            show this help message and exit
  --project \x7bauto,hardhat,forge,solidity_folder\x7d
                        Project type (default: from the project config, else
                        auto)
  --compiler-version COMPILER_VERSION
                        Compiler version for plain Solidity folders, e.g.
                        v0.8.20
  --contract CONTRACT   Only extract artifacts of this contract (plain
                        Solidity folders only)
  --cache-dir CACHE_DIR
                        Cache directory (default: from the project config,
                        else '.tmp' in the project)
  --output OUTPUT       Write the JSON result to this file instead of standard
                        output
  --verbose             Log debug messages
"

def projectOption : OptionSpec := ⟨["--project"], true, ProjectKind.all.map ProjectKind.name⟩
def versionOption : OptionSpec := ⟨["--compiler-version"], true, []⟩
def contractOption : OptionSpec := ⟨["--contract"], true, []⟩
def cacheOption : OptionSpec := ⟨["--cache-dir"], true, []⟩
def outputOption : OptionSpec := ⟨["--output"], true, []⟩
def verboseOption : OptionSpec := ⟨["--verbose"], false, []⟩

/-- The options of the command that builds. -/
def buildOptions : List OptionSpec :=
  [Arguments.help, projectOption, versionOption, contractOption, cacheOption, outputOption,
    verboseOption]

/-- The folder that a command works on unless one is given. -/
def defaultFolder : Text := "."

/-- A value that is not empty. -/
def nonEmpty? (value : Option Text) : Option Text := value.filter fun t => !t.isEmpty

/-- The arguments of the command that builds. -/
def buildArguments (r : Arguments.Read) : BuildArguments where
  folder := r.word.getD defaultFolder
  project := nonEmpty? (r.value? projectOption)
  version := nonEmpty? (r.value? versionOption)
  contract := nonEmpty? (r.value? contractOption)
  cacheFolder := nonEmpty? (r.value? cacheOption)
  output := nonEmpty? (r.value? outputOption)
  verbose := (r.value? verboseOption).isSome

/-- The name of a command in messages. -/
def fullName (command : Text) : Text := program ++ " " ++ command

/-- Reads the arguments of one command. `leftOver` is what was not recognized in front of it. -/
def readCommand (leftOver : List Text) (name usage help : Text) (specs : List OptionSpec)
    (request : Arguments.Read → Request) (arguments : List Text) : Request :=
  match Arguments.parse specs arguments with
  | .error .helpWanted => .explain help
  | .error (.fault fault) => .misused usage (fullName name) fault
  | .ok r =>
    match leftOver ++ r.leftOver with
    | [] => request r
    | unknown => .misused programUsage program (.unrecognized unknown)

/-- What follows the name of a command. -/
def dispatch (leftOver : List Text) (name : Text) (arguments : List Text) : Request :=
  if name = detectName then
    readCommand leftOver name detectUsage detectHelp [Arguments.help]
      (fun r => .detect (r.word.getD defaultFolder)) arguments
  else if name = buildName then
    readCommand leftOver name buildUsage buildHelp buildOptions
      (fun r => .build (buildArguments r)) arguments
  else .misused programUsage program (.invalidChoice "COMMAND" name [detectName, buildName])

/-- Reads a line of arguments; `leftOver` is what was not recognized so far. -/
def readFrom (leftOver : List Text) : List Text → Request
  | [] =>
    match leftOver with
    | [] => .explain programHelp
    | unknown => .misused programUsage program (.unrecognized unknown)
  | argument :: rest =>
    match Arguments.read [Arguments.help] argument with
    | .error fault => .misused programUsage program fault
    | .ok .unknownOption => readFrom (leftOver ++ [argument]) rest
    | .ok .word => dispatch leftOver argument rest
    | .ok .dashes =>
      if rest = [] then readFrom (leftOver ++ [argument]) rest else dispatch leftOver argument rest
    | .ok (.option spec name attached) =>
      let tail : Except Arguments.Stop Unit :=
        match attached with
        | some attached =>
          Arguments.shortTail [Arguments.help] spec name (attached.value.length + 1) attached
        | none => .ok ()
      match tail with
      | .error (.fault fault) => .misused programUsage program fault
      | _ => .explain programHelp

end Usage

/-- What a line of arguments asks for. -/
def Request.ofArguments (arguments : List Text) : Request := Usage.readFrom [] arguments

end SolidityBuild
