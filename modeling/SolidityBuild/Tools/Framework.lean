import SolidityBuild.Document.BuildRecord
import SolidityBuild.Project.Sources
import SolidityBuild.Tools.Compiler

/-!
Running the build frameworks. A framework builds the project in a folder by a command of its own and
leaves a record of every compiler run in a folder below. That a build fails is part of its outcome and
no failure here.
-/

set_option autoImplicit false

namespace SolidityBuild

/-- A build framework: its command, and where it leaves its records. -/
structure Framework where
  command : List Text
  records : List Text

namespace Framework

def hardhat : Framework := ⟨["npx", "hardhat", "compile"], ["artifacts", "build-info"]⟩

def forge : Framework := ⟨["forge", "build", "--build-info"], ["out", "build-info"]⟩

/-- The framework of a kind of project. -/
def ofKind? : ProjectKind → Option Framework
  | .hardhat => some hardhat
  | .forge => some forge
  | _ => none

/-- The error text about a record file that cannot be read. -/
def unreadable (path : Path) (reason : Text) : Text :=
  "Cannot read build-info file '" ++ path.text ++ "': " ++ reason

/-- The error text about a record file that holds no record. -/
def invalid (path : Path) (reason : Text) : Text :=
  "Invalid build-info file '" ++ path.text ++ "': " ++ reason

/-- The record in a file, or the error text about it. -/
def readRecord (files : Files) (path : Path) : Except Failure (Except Text BuildRecord) :=
  match files.readText path with
  | .error (.file (.system fault)) => .ok (.error (unreadable path fault.message))
  | .error (.file .nullInPath) => .error (.unforeseen .nullInPath)
  | .error (.octets fault) => .error (.unforeseen (.octets fault))
  | .ok text =>
    match Json.parse text with
    | .error (.notJson fault) => .ok (.error (invalid path fault.message))
    | .error fault => .error (.unforeseen fault.defect)
    | .ok document =>
      match BuildRecord.ofJson document with
      | .error rejection => .ok (.error (invalid path rejection.message))
      | .ok record => .ok (.ok record)

/-- The records in files, or the error text about the first file that holds none. -/
def readRecords (files : Files) : List Path → Except Failure (Except Text (List BuildRecord))
  | [] => .ok (.ok [])
  | path :: rest => do
    match ← readRecord files path with
    | .error complaint => pure (.error complaint)
    | .ok record =>
      match ← readRecords files rest with
      | .error complaint => pure (.error complaint)
      | .ok records => pure (.ok (record :: records))

/-- What the names of record files end with. -/
def recordSuffix : Text := ".json"

/-- The outcome that a folder of records tells. -/
def outcomeOfFolder (files : Files) (folder : Path) : Narrated FrameworkOutcome := do
  if ← Files.foresee (files.isFolder folder) then
    let paths ← Files.foresee (files.findIn folder recordSuffix)
    match ← .ofExcept (readRecords files paths) with
    | .ok records => pure (.succeeded records)
    | .error complaint => pure (.failed complaint)
  else pure (.failed ("Build-info directory not found: " ++ folder.text))

/-- Builds the project in a folder. -/
def build (framework : Framework) (files : Files) (folder : Path) (timeLimit : Nat) :
    Task Workbench FrameworkOutcome := do
  .tell ⟨.info, "framework_build_started",
    [("command", .text (InvocationFault.commandLine framework.command)),
      ("task_dir", .text folder.text)]⟩
  match ← Task.change fun w : Workbench =>
      w.run ⟨framework.command, timeLimit, some folder.text, none⟩ with
  | .notFound => pure (.failed (InvocationFault.notFound (framework.command.headD [])).message)
  | .timedOut => pure (.failed (InvocationFault.timedOut framework.command).message)
  | .finished code stdout stderr =>
    if code ≠ 0 then
      let told := stderr.trim
      pure (.failed (if told = [] then stdout.trim else told))
    else .ofNarrated (outcomeOfFolder files ⟨folder.slashes, folder.parts ++ framework.records⟩)

end Framework

end SolidityBuild
