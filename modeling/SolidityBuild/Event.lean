import SolidityBuild.Json.Basic

/-!
What a build tells about its progress: events with a name, a level and fields.
-/

set_option autoImplicit false

namespace SolidityBuild

/-- How much an event matters. -/
inductive Level where
  | debug
  | info
  | warning
deriving DecidableEq, Repr

/-- The name of a level. -/
def Level.name : Level → Text
  | debug => "debug"
  | info => "info"
  | warning => "warning"

/-- Something that happened during a build. -/
structure Event where
  level : Level
  name : Text
  fields : Table Json := []

namespace Event

/-- Whether the event is told when details are not asked for. -/
def isNotable (e : Event) : Bool := e.level ≠ .debug

end Event

end SolidityBuild
