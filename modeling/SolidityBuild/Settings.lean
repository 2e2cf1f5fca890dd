import SolidityBuild.Json.Basic

/-!
Compiler settings that ask for everything that the artifacts are made of. What the caller asks for
stays, in its order and without repetitions, and what is missing is added at the end, so augmenting
augmented settings changes nothing. Outputs are compared by the looser equality of JSON values.
-/

set_option autoImplicit false

namespace SolidityBuild

namespace Settings

/-- The key of every file, and of every contract of a file. -/
def wildcard : Text := "*"

/-- The key of a file as a whole. -/
def wholeFile : Text := ""

/-- The key of the selection of outputs. -/
def selectionKey : Text := "outputSelection"

/-- The outputs needed of every contract. -/
def contractOutputs : List Text :=
  ["ast", "legacyAST", "evm.deployedBytecode.sourceMap", "evm.bytecode", "evm.deployedBytecode",
    "abi"]

/-- The outputs needed of every file. -/
def fileOutputs : List Text := ["ast", "legacyAST"]

/-- Whether an output is among others, loosely. -/
def isAmong (outputs : List Json) (output : Json) : Bool := outputs.any fun x => x.looseEq output

/-- The outputs with one more at the end, if it is not yet among them. -/
def addOutput (outputs : List Json) (output : Json) : List Json :=
  if isAmong outputs output then outputs else outputs ++ [output]

/-- The outputs asked for, each once, with the needed ones. Only a list asks for outputs. -/
def mergeOutputs (asked : Option Json) (needed : List Text) : List Json :=
  let outputs := (asked.bind Json.items?).getD []
  (outputs ++ needed.map Json.text).foldl addOutput []

/-- The table under a key; a value that is no object counts as an empty one. -/
def tableAt (t : Table Json) (key : Text) : Table Json := ((t.get? key).bind Json.entries?).getD []

/-- The outputs of one file pattern, augmented. -/
def augmentFile (t : Table Json) : Table Json :=
  let t := t.put wildcard (.list (mergeOutputs (t.get? wildcard) contractOutputs))
  t.put wholeFile (.list (mergeOutputs (t.get? wholeFile) fileOutputs))

/-- The selection of outputs, augmented. -/
def augmentSelection (t : Table Json) : Table Json :=
  t.put wildcard (.object (augmentFile (tableAt t wildcard)))

/-- Settings that ask for all needed outputs. -/
def augment (settings : Table Json) : Table Json :=
  settings.put selectionKey (.object (augmentSelection (tableAt settings selectionKey)))

/-- The same for settings that may be left out. -/
def augmentGiven (settings : Option (Table Json)) : Table Json := augment (settings.getD [])

end Settings

end SolidityBuild
