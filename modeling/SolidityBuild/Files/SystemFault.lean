import SolidityBuild.Text.Quoted
import SolidityBuild.Number.Decimal

/-!
Faults of file operations: a numbered cause, and the path or the two paths that the operation was
about.
-/

set_option autoImplicit false

namespace SolidityBuild

/-- Why a file operation failed. -/
inductive SystemCause where
  | notFound
  | denied
  | alreadyThere
  | notDirectory
  | isDirectory
  | invalidArgument
  | nameTooLong
  | tooManyLinks
deriving DecidableEq, Repr

namespace SystemCause

/-- The number of a cause. -/
def number : SystemCause → Nat
  | notFound => 2
  | denied => 13
  | alreadyThere => 17
  | notDirectory => 20
  | isDirectory => 21
  | invalidArgument => 22
  | nameTooLong => 36
  | tooManyLinks => 40

/-- The wording of a cause. -/
def message : SystemCause → Text
  | notFound => "No such file or directory"
  | denied => "Permission denied"
  | alreadyThere => "File exists"
  | notDirectory => "Not a directory"
  | isDirectory => "Is a directory"
  | invalidArgument => "Invalid argument"
  | nameTooLong => "File name too long"
  | tooManyLinks => "Too many levels of symbolic links"

end SystemCause

/-- A failed file operation. -/
structure SystemFault where
  cause : SystemCause
  path : Text
  /-- The second path of an operation on two. -/
  target : Option Text := none
deriving DecidableEq, Repr

namespace SystemFault

/-- The message of a failed file operation. -/
def message (f : SystemFault) : Text :=
  "[Errno " ++ Text.ofNat f.cause.number ++ "] " ++ f.cause.message ++ ": " ++ f.path.quoted ++
    match f.target with
    | some target => " -> " ++ target.quoted
    | none => []

end SystemFault

end SolidityBuild
