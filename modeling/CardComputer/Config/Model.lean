import CardComputer.Json.Stored

/-!
# Models

The card computers that share the board. Those with speech stall the main unit while they speak; the
others have a tone output instead.
-/

namespace CardComputer

/-- A card computer. -/
inductive Model where
  | vbrc
  | ubc
  | bv3
  | gin
deriving DecidableEq

namespace Model

/-- Whether a model speaks. -/
def hasSpeech : Model → Bool
  | vbrc | bv3 => true
  | ubc | gin => false

instance : Json.Named Model where
  all := [vbrc, ubc, bv3, gin]
  name
    | vbrc => "vbrc"
    | ubc => "ubc"
    | bv3 => "bv3"
    | gin => "gin"

instance : Json.LawfulNamed Model where
  find?_name a := by cases a <;> rfl

/-- The name of a model in a message. -/
def title : Model → String
  | vbrc => "Vbrc"
  | ubc => "Ubc"
  | bv3 => "Bv3"
  | gin => "Gin"

end Model

end CardComputer
