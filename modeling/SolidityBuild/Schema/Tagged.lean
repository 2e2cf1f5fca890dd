import SolidityBuild.Schema.Decoder
import SolidityBuild.Json.Display

/-!
Documents of several shapes that say under one key, the tag, which shape they have. The tag is looked
at first, and only the faults of the shape it names are reported, with the tag in front of their path.
-/

set_option autoImplicit false

namespace SolidityBuild

namespace Schema

/-- One shape: its tag and the decoder of its entries. -/
structure Shape (α : Type) where
  tag : Text
  read : Table Json → Decoded α

namespace Decoder

variable {α : Type}

/-- Objects of one of several shapes, told apart by the text under `tagKey`. -/
def tagged (tagKey : Text) (shapes : List (Shape α)) : Decoder α
  | .object entries =>
    match entries.lookup tagKey with
    | none => .fail (.noTag tagKey)
    | some tag =>
      match shapes.find? fun shape => tag.text? = some shape.tag with
      | some shape => (shape.read entries).inside (.key shape.tag)
      | none => .fail (.unknownTag tagKey tag.display (shapes.map (·.tag)))
  | _ => .fail .notTagged

end Decoder

end Schema

end SolidityBuild
