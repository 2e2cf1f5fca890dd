import SolidityBuild.Cache.Fault
import SolidityBuild.Json.Display
import SolidityBuild.Project.Fault
import SolidityBuild.Project.Kind
import SolidityBuild.Schema.Fault
import SolidityBuild.Tools.Fault
import SolidityBuild.Yaml.Fault

/-!
Why a build fails. A failure is one of the causes that a build foresees, each with its own message, or
a *defect*: a cause that lies in a document or in the file system and that nothing on the way foresees.
Callers that handle failed builds handle the foreseen causes.
-/

set_option autoImplicit false

namespace SolidityBuild

/-- A cause that a build does not foresee. -/
inductive Defect where
  | rejected (rejection : Schema.Rejection)
  | notJson (fault : Json.SyntaxFault)
  | tooManyDigits (digits : Nat)
  | surrogates (fault : Text.SurrogateFault)
  | octets (fault : Text.OctetFault)
  | system (fault : SystemFault)
  /-- A path holds the code point zero. -/
  | nullInPath
  /-- A path leads through links back to itself. -/
  | linkLoop (path : Text)
  | unserializable (fault : SerializationFault)
  /-- A scalar of a file of settings does not spell a value of its type. -/
  | badScalar (fault : Yaml.Fault)
  /-- A member was asked of a value that has none of that name. -/
  | noMember (value : Json) (member : Text)
  /-- Items were asked of a value that has none. -/
  | noItems (value : Json)

/-- A cause that a build foresees, or a defect. -/
inductive Failure where
  | versionMissing
  | projectUnknown (name : Text)
  | providerMissing (kind : ProjectKind)
  | frameworkFailed (complaint : Option Text)
  | requestRejected (rejection : Schema.Rejection)
  | invocation (fault : InvocationFault)
  | reportRejected (rejection : Schema.Rejection)
  | fatalDiagnostics (texts : List Text)
  | contractMissing (name : Text)
  | contractAmbiguous (name : Text) (paths : List Text)
  | cache (fault : CacheFault)
  | sourceUnreadable (fault : ProjectFileFault)
  | unforeseen (defect : Defect)

/-- The name of a value's type in messages. -/
def Json.typeName : Json → Text
  | .null => "NoneType"
  | .bool _ => "bool"
  | .int _ => "int"
  | .float _ => "float"
  | .text _ => "str"
  | .list _ => "list"
  | .object _ => "dict"

/-- The defect of a text that was not read as JSON. -/
def Json.ReadFault.defect : Json.ReadFault → Defect
  | .notJson fault => .notJson fault
  | .tooManyDigits digits => .tooManyDigits digits

namespace Defect

/-- The message of a defect. -/
def message : Defect → Text
  | rejected rejection => rejection.message
  | notJson fault => fault.message
  | tooManyDigits digits => (Json.ReadFault.tooManyDigits digits).message
  | surrogates fault => fault.message
  | octets fault => fault.message
  | system fault => fault.message
  | nullInPath => "embedded null byte"
  | linkLoop path => "Symlink loop from " ++ path.quoted
  | unserializable fault => fault.message
  | badScalar fault => fault.message
  | noMember value member => "'" ++ value.typeName ++ "' object has no attribute '" ++ member ++ "'"
  | noItems value => "'" ++ value.typeName ++ "' object is not iterable"

end Defect

namespace Failure

/-- Whether the build foresees the cause. -/
def isForeseen : Failure → Bool
  | unforeseen _ => false
  | _ => true

/-- The message of a failure. -/
def message : Failure → Text
  | versionMissing => "Compiler version not specified"
  | projectUnknown name => "Unknown project type '" ++ name ++ "'"
  | providerMissing kind => "No build-info provider for project kind '" ++ kind.name ++ "'"
  | frameworkFailed complaint => "Build failed: " ++ complaint.getD "None"
  | requestRejected rejection => "Invalid compiler input in build-info: " ++ rejection.message
  | invocation fault => fault.message
  | reportRejected rejection => "Unexpected compiler output document: " ++ rejection.message
  | fatalDiagnostics texts => "Compilation failed:\n" ++ Text.join "\n" texts
  | contractMissing name => "Contract '" ++ name ++ "' not found in compiler output"
  | contractAmbiguous name paths =>
    "Contract name '" ++ name ++ "' is ambiguous: defined in " ++
      Text.join ", " (paths.map Text.quoted)
  | cache fault => fault.message
  | sourceUnreadable fault => fault.message
  | unforeseen defect => defect.message

end Failure

end SolidityBuild
