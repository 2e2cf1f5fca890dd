import SolidityBuild.Text.Basic

/-!
The kinds of projects: two frameworks that drive the compiler themselves, and a plain folder of
sources. A project may also leave its kind to be detected.
-/

set_option autoImplicit false

namespace SolidityBuild

/-- How the sources of a project become requests to the compiler. -/
inductive ProjectKind where
  | detect
  | hardhat
  | forge
  | folder
deriving DecidableEq, Repr

namespace ProjectKind

/-- All kinds, in the order in which messages list them. -/
def all : List ProjectKind := [detect, hardhat, forge, folder]

/-- The name of a kind. -/
def name : ProjectKind → Text
  | detect => "auto"
  | hardhat => "hardhat"
  | forge => "forge"
  | folder => "solidity_folder"

/-- The kind of a given name. -/
def ofName? (name : Text) : Option ProjectKind := all.find? fun kind => kind.name = name

end ProjectKind

end SolidityBuild
