import CardComputer.Card.Code
import CardComputer.Panel.Keypad

/-!
# Events

What happens at a time of its own, apart from the steps of the processors. An entry of the timeline
is an event with its time and a sequence number; entries are ordered by time, and those of the same
time by sequence number.
-/

namespace CardComputer

/-- What can happen. -/
inductive Event where
  /-- The next half-bit passes the card sensor. -/
  | barcodeShift
  /-- The display counts a tick. -/
  | displayTick
  /-- A card is swiped. -/
  | cardSwipe (code : CardCode)
  /-- A key is pressed or released. -/
  | keyChange (key : Key) (pressed : Bool)
  /-- The speech unit has finished the word that began the stall with a number. -/
  | speechDone (generation : UInt64)
deriving DecidableEq

namespace Event

/-- The names of the kinds of events. -/
def kinds : List String := ["BarcodeShift", "DisplayTick", "CardSwipe", "KeyChange", "SpeechDone"]

/-- How a key change is read. -/
def keyChangeRecord : Json.Record Event :=
  (Json.Record.of keyChange).field "key" |>.field "pressed"

/-- The event of a kind with its details. -/
def ofVariant : String × Option Json → Except Json.DecodeError Event
  | ("BarcodeShift", payload) => (Json.noPayload payload).map fun _ => barcodeShift
  | ("DisplayTick", payload) => (Json.noPayload payload).map fun _ => displayTick
  | ("CardSwipe", payload) => (Json.payload payload).map cardSwipe
  | ("KeyChange", payload) => Json.recordPayload keyChangeRecord payload
  | ("SpeechDone", payload) => (Json.payload payload).map speechDone
  | (kind, _) => .error (.unknownVariant kind kinds)

instance : Json.Stored Event where
  encode
    | barcodeShift => .text "BarcodeShift"
    | displayTick => .text "DisplayTick"
    | cardSwipe code => .object [("CardSwipe", Json.encode code)]
    | keyChange key pressed =>
      .object [("KeyChange", .object [("key", Json.encode key), ("pressed", Json.encode pressed)])]
    | speechDone generation => .object [("SpeechDone", Json.encode generation)]
  decode v := Json.variantOf v >>= ofVariant

theorem ofVariant_cardSwipe (payload : Option Json) :
    ofVariant ("CardSwipe", payload) = (Json.payload payload).map cardSwipe := rfl

theorem ofVariant_keyChange (payload : Option Json) :
    ofVariant ("KeyChange", payload) = Json.recordPayload keyChangeRecord payload := rfl

theorem ofVariant_speechDone (payload : Option Json) :
    ofVariant ("SpeechDone", payload) = (Json.payload payload).map speechDone := rfl

instance : Json.LawfulStored Event where
  decode_encode e := by
    cases e with
    | barcodeShift => rfl
    | displayTick => rfl
    | cardSwipe code =>
      refine Json.variantOf_object_bind ?_
      rw [ofVariant_cardSwipe, Json.payload_encode]
      rfl
    | keyChange key pressed =>
      refine Json.variantOf_object_bind ?_
      rw [ofVariant_keyChange]
      exact Json.recordPayload_object (by simp [keyChangeRecord])
    | speechDone generation =>
      refine Json.variantOf_object_bind ?_
      rw [ofVariant_speechDone, Json.payload_encode]
      rfl

end Event

/-- An event on the timeline. -/
structure Entry where
  /-- When it happens. -/
  time : UInt64
  /-- Its place among the entries of the same time. -/
  seq : UInt64
  /-- What happens. -/
  event : Event
deriving DecidableEq

namespace Entry

/-- Whether an entry goes before another. -/
def before (a b : Entry) : Bool :=
  a.time < b.time || (a.time == b.time && a.seq < b.seq)

/-- Compares the places of two entries. -/
def order (a b : Entry) : Ordering :=
  if a.before b then .lt else if b.before a then .gt else .eq

/-- An earlier entry goes first, and of two entries of the same time the one with the lesser
number. -/
theorem before_iff {a b : Entry} : a.before b = true ↔
    a.time.toNat < b.time.toNat ∨ (a.time.toNat = b.time.toNat ∧ a.seq.toNat < b.seq.toNat) := by
  simp [before, UInt64.lt_iff_toNat_lt, UInt64.toNat_inj]

/-- How an entry is read. -/
def record : Json.Record Entry :=
  (Json.Record.of mk).field "time" |>.field "seq" |>.field "event"

instance : Json.Stored Entry where
  encode e := .object [
    ("time", Json.encode e.time),
    ("seq", Json.encode e.seq),
    ("event", Json.encode e.event)]
  decode := record.decode "Scheduled"

instance : Json.LawfulStored Entry where
  decode_encode _ := Json.Record.decode_object (by simp [record])

end Entry

end CardComputer
