import SolidityBuild.Schema.Tagged

/-!
Which contracts the artifacts are wanted of: one, looked up by its name, or all.
-/

set_option autoImplicit false

namespace SolidityBuild

open Schema

/-- A choice of contracts. -/
inductive Selection where
  | contract (name : Text)
  | all
deriving DecidableEq, Repr

namespace Selection

/-- The key under which documents say which shape they have. -/
def tagKey : Text := "kind"

/-- Reads a selection. The name of a contract is not empty. -/
def decoder : Decoder Selection :=
  Decoder.tagged tagKey
    [⟨"contract", fun t => contract <$> Field.required ⟨"name", none⟩ t Decoder.nonEmptyText⟩,
      ⟨"all", fun _ => .value all⟩]

/-- The selection that a document spells, or why it spells none. -/
def ofJson (j : Json) : Except Rejection Selection :=
  (decoder j).toExcept "tagged-union[PerContract,AllContracts]"

/-- The document of a selection. -/
def toJson : Selection → Json
  | contract name => .object [(tagKey, .text "contract"), ("name", .text name)]
  | all => .object [(tagKey, .text "all")]

end Selection

end SolidityBuild
