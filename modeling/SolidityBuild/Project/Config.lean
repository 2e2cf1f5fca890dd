import SolidityBuild.Files.Basic
import SolidityBuild.Project.Kind
import SolidityBuild.Tools.Compiler
import SolidityBuild.Yaml.Document

/-!
The settings that a project keeps in a file of its own: where the cache is, which compiler and which kind
of project are meant, and how long a command may take. Everything is optional, and what is there must be
of its type; entries of other names do not count.
-/

set_option autoImplicit false

namespace SolidityBuild

/-- The settings of a project. -/
structure ProjectConfig where
  cacheFolder : Text := ".tmp"
  version : Option Text := none
  kind : ProjectKind := .detect
  timeLimit : Nat := Compiler.defaultTimeLimit

/-- What is wrong with the file of settings. -/
inductive ConfigFault where
  | missing (path : Text)
  | unreadable (fault : SystemFault)
  | notYaml (path : Text) (how : Yaml.Malformation)
  | notMapping (path : Text)
  | notText (path key : Text)
  | unknownKind (path name : Text)
  | badTimeLimit (path : Text)
  /-- A fault that nothing foresees: the file is not text, or a value in it is none. -/
  | octets (fault : Text.OctetFault)
  | nullInPath
  | badValue (fault : Yaml.Fault)

namespace ConfigFault

/-- The message about a file of settings. -/
def message : ConfigFault → Text
  | missing path => "Project config file not found: " ++ path
  | unreadable fault => "Cannot read project config file: " ++ fault.message
  | notYaml path how => "Invalid YAML in " ++ path ++ ": " ++ how.message
  | notMapping path => path ++ ": project config must be a YAML mapping"
  | notText path key => path ++ ": '" ++ key ++ "' must be a string"
  | unknownKind path name =>
    path ++ ": unknown project '" ++ name ++ "' (expected one of: " ++
      Text.join ", " (ProjectKind.all.map ProjectKind.name) ++ ")"
  | badTimeLimit path => path ++ ": 'compiler-timeout' must be a positive integer"
  | octets fault => fault.message
  | nullInPath => "embedded null byte"
  | badValue fault => fault.message

/-- Whether the fault is one that readers of settings foresee. -/
def isForeseen : ConfigFault → Bool
  | octets _ => false
  | nullInPath => false
  | badValue _ => false
  | _ => true

end ConfigFault

namespace ProjectConfig

/-- The name of the file of settings. -/
def fileName : Text := ".solbuild.yaml"

def cacheKey : Text := "cache-directory"
def versionKey : Text := "compiler-version"
def kindKey : Text := "project"
def timeLimitKey : Text := "compiler-timeout"

/-- The text under a key, if there is anything under it. -/
def text? (path : Text) (entries : List (Yaml.Value × Yaml.Value)) (key : Text) :
    Except ConfigFault (Option Text) :=
  match Yaml.Document.get? entries key with
  | none => .ok none
  | some (.text t) => .ok (some t)
  | some _ => .error (.notText path key)

/-- The kind of project under its key. -/
def kind? (path : Text) (entries : List (Yaml.Value × Yaml.Value)) :
    Except ConfigFault (Option ProjectKind) := do
  match ← text? path entries kindKey with
  | none => pure none
  | some name =>
    match ProjectKind.ofName? name with
    | some kind => pure (some kind)
    | none => .error (.unknownKind path name)

/-- The time limit under its key: a whole number above zero. -/
def timeLimit? (path : Text) (entries : List (Yaml.Value × Yaml.Value)) :
    Except ConfigFault (Option Nat) :=
  match Yaml.Document.get? entries timeLimitKey with
  | none => .ok none
  | some (.integer n) => if 0 < n then .ok (some n.toNat) else .error (.badTimeLimit path)
  | some _ => .error (.badTimeLimit path)

/-- The settings that the entries of a mapping give. -/
def ofEntries (path : Text) (entries : List (Yaml.Value × Yaml.Value)) :
    Except ConfigFault ProjectConfig := do
  let defaults : ProjectConfig := {}
  let cacheFolder ← text? path entries cacheKey
  let version ← text? path entries versionKey
  let kind ← kind? path entries
  let timeLimit ← timeLimit? path entries
  pure ⟨cacheFolder.getD defaults.cacheFolder, version, kind.getD defaults.kind,
    timeLimit.getD defaults.timeLimit⟩

/-- The settings that a text gives; `path` is where it comes from. -/
def ofText (path text : Text) : Except ConfigFault ProjectConfig :=
  match Yaml.Document.ofText text with
  | .error (.malformed how) => .error (.notYaml path how)
  | .error fault => .error (.badValue fault)
  | .ok .empty => .ok {}
  | .ok (.mapping entries) => ofEntries path entries
  | .ok (.other _) => .error (.notMapping path)

/-- The settings in a file. -/
def load (files : Files) (path : Path) : Except ConfigFault ProjectConfig :=
  match files.readText path with
  | .error (.file (.system fault)) =>
    if fault.cause = .notFound then .error (.missing path.text) else .error (.unreadable fault)
  | .error (.file .nullInPath) => .error .nullInPath
  | .error (.octets fault) => .error (.octets fault)
  | .ok text => ofText path.text text

end ProjectConfig

end SolidityBuild
