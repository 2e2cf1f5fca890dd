import SolidityBuild.Files.SystemFault
import SolidityBuild.Text.Utf8

/-!
Faults of reading the files of a project.
-/

set_option autoImplicit false

namespace SolidityBuild

/-- Why a file did not yield a text. -/
inductive UnreadableReason where
  | octets (fault : Text.OctetFault)
  | system (fault : SystemFault)
deriving DecidableEq, Repr

/-- A file of a project that does not yield a text. -/
structure ProjectFileFault where
  path : Text
  reason : UnreadableReason
deriving DecidableEq, Repr

namespace ProjectFileFault

/-- The message about an unreadable project file. -/
def message (f : ProjectFileFault) : Text :=
  "Cannot read project file '" ++ f.path ++ "': " ++
    match f.reason with
    | .octets fault =>
      "not valid UTF-8 (" ++ fault.reason.message ++ " at byte " ++ Text.ofNat fault.position ++ ")"
    | .system fault => fault.cause.message

end ProjectFileFault

end SolidityBuild
