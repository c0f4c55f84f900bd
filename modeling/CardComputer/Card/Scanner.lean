import CardComputer.Card.Swipe
import CardComputer.Op

/-!
# The card scanner

The sensor of the scanner sees one half-bit of a swiped card at a time. A new swipe takes the place
of one that is still going on. When all half-bits have passed the sensor sees bright.
-/

namespace CardComputer

/-- The state of the scanner. -/
structure Scanner where
  /-- The half-bits still to come, the current one lowest, where a one is dark. -/
  stream : UInt32
  /-- How many half-bits are still to come. -/
  remaining : UInt8
  /-- The card of the current or the last swipe. -/
  card : Option CardCode
deriving DecidableEq

namespace Scanner

/-- A scanner that has seen no card. -/
def idle : Scanner := ⟨0, 0, none⟩

/-- The scanner at the start of a swipe. -/
def loaded (c : CardCode) : Scanner :=
  ⟨Swipe.encode c, Swipe.halfBits.toUInt8, some c⟩

/-- The scanner one half-bit later. -/
def tick (s : Scanner) : Scanner :=
  if s.remaining = 0 then s
  else { s with stream := s.stream >>> 1, remaining := s.remaining - 1 }

/-- What the sensor sees; true is bright. -/
def sense (s : Scanner) : Bool :=
  s.stream &&& 1 == 0

/-- Whether half-bits are still to come. -/
def isScanning (s : Scanner) : Bool :=
  0 < s.remaining

/-- How many half-bits have passed. A stored scanner may claim more half-bits than a swipe has. -/
def position (s : Scanner) : Except Fault UInt8 :=
  checkedSub Swipe.halfBits.toUInt8 s.remaining

/-- The message about a new swipe. -/
def swipeText (s : Scanner) (c : CardCode) : MessageText := fun _ => do
  let code := Text.Hex.upper 2 c.value.toNat
  if s.isScanning then
    -- A stored scanner can be in the middle of a swipe without knowing its card.
    let old := Text.Hex.upper 2 ((s.card.map fun c => c.value.toNat).getD 0)
    let position ← s.position
    return s!"Scanner: re-swipe {code} preempts {old} at half-bit {position}"
  else
    return s!"Scanner: swipe {code}"

/-- Starts a swipe. -/
def swipe (c : CardCode) : Op Scanner Unit := do
  let s ← Op.device
  Op.report .input .debug (s.swipeText c)
  Op.update fun _ => loaded c

/-- How a scanner is read. -/
def record : Json.Record Scanner :=
  (Json.Record.of mk).field "stream" |>.field "remaining" |>.optional "card"

instance : Json.Stored Scanner where
  encode s := .object [
    ("stream", Json.encode s.stream),
    ("remaining", Json.encode s.remaining),
    ("card", Json.encode s.card)]
  decode := record.decode "BarcodeScanner"

instance : Json.LawfulStored Scanner where
  decode_encode _ := Json.Record.decode_object (by simp [record])

end Scanner

end CardComputer
