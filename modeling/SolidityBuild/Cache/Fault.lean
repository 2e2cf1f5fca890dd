import SolidityBuild.Files.SystemFault
import SolidityBuild.Json.Parser

/-!
Faults of the cache.
-/

set_option autoImplicit false

namespace SolidityBuild

/-- Why a value has no JSON text. -/
inductive SerializationFault where
  | foreign (typeName : Text)
  | circular
deriving DecidableEq, Repr

/-- The message about a value without a JSON text. -/
def SerializationFault.message : SerializationFault → Text
  | foreign typeName => "Object of type " ++ typeName ++ " is not JSON serializable"
  | circular => "Circular reference detected"

/-- A cache entry that cannot be read or written. -/
inductive CacheFault where
  | entryMissing (key : Text)
  | unserializable (key : Text) (fault : SerializationFault)
  | unreadable (path : Text) (fault : SystemFault)
  | notJson (path : Text) (fault : Json.SyntaxFault)
  | notObject (path : Text)
  | unwritable (path : Text) (fault : SystemFault)
deriving DecidableEq, Repr

namespace CacheFault

/-- The message about a cache entry. -/
def message : CacheFault → Text
  | entryMissing key => "No cache entry '" ++ key ++ "'"
  | unserializable key fault => "Cannot serialize cache entry '" ++ key ++ "': " ++ fault.message
  | unreadable path fault => "Cannot read cache file '" ++ path ++ "': " ++ fault.message
  | notJson path fault => "Invalid JSON in cache file '" ++ path ++ "': " ++ fault.message
  | notObject path => "Cache file '" ++ path ++ "' does not contain a JSON object"
  | unwritable path fault => "Cannot write cache file '" ++ path ++ "': " ++ fault.message

end CacheFault

end SolidityBuild
