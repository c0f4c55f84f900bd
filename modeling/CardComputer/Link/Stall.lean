import CardComputer.Op

/-!
# Stalls

While the speech unit plays a word the main unit is stalled. Stalls are numbered, and a stall is
only ended by a completion with its own number: one that was meant for an earlier stall does
nothing, and a word that is spoken during a stall is ignored.
-/

namespace CardComputer

/-- Whether the main unit may run. -/
inductive UnitState where
  | running
  | stalled
deriving DecidableEq

namespace UnitState

/-- The name of a state. -/
def name : UnitState → String
  | running => "Running"
  | stalled => "Stalled"

instance : Json.Named UnitState := ⟨[running, stalled], name⟩

instance : Json.LawfulNamed UnitState where
  find?_name a := by cases a <;> rfl

end UnitState

/-- What can stall the main unit. -/
inductive StallSource where
  | speech
deriving DecidableEq

namespace StallSource

/-- The name of a source. -/
def name : StallSource → String
  | speech => "Speech"

instance : Json.Named StallSource := ⟨[speech], name⟩

instance : Json.LawfulNamed StallSource where
  find?_name a := by cases a; rfl

end StallSource

/-- The stall control of the main unit. -/
structure StallControl where
  /-- Whether the main unit may run. -/
  state : UnitState
  /-- What stalls it. -/
  owner : Option StallSource
  /-- The cycles the main unit was allowed to run. -/
  gatedCycles : UInt64
  /-- How many stalls were ended. -/
  stalls : UInt64
  /-- The number of the current or the last stall. -/
  generation : UInt64
deriving DecidableEq

namespace StallControl

/-- No stall so far. -/
def fresh : StallControl := ⟨.running, none, 0, 0, 0⟩

/-- Whether the main unit is stalled. -/
def isStalled (c : StallControl) : Bool :=
  c.state == .stalled

/-- The text of an owner in a message. -/
def ownerText : Option StallSource → String
  | some source => s!"Some({source.name})"
  | none => "None"

/-- Begins a stall unless there is one; answers whether it was begun. -/
def begin (source : StallSource) : Op StallControl Bool := do
  let c ← Op.device
  match c.state with
  | .running =>
    Op.say .sync .debug fun _ => s!"Sync: main unit stalled by {source.name}"
    -- The stall has begun even if there is no number left for it.
    Op.update fun c => { c with state := .stalled, owner := some source }
    let generation ← Op.check (checkedAdd c.generation 1)
    Op.update fun c => { c with generation }
    return true
  | .stalled =>
    Op.say .sync .warn fun _ =>
      s!"Sync: playback from {source.name} ignored, already stalled by {ownerText c.owner}"
    return false

/-- Ends the stall with a number if it is the current one; answers whether it was ended. -/
def complete (generation : UInt64) : Op StallControl Bool := do
  let c ← Op.device
  if c.isStalled && generation == c.generation then
    Op.say .sync .debug fun _ => s!"Sync: {ownerText c.owner} done, main unit resumes"
    Op.update fun c => { c with state := .running, owner := none }
    -- The stall has ended even if there is no number left to count it.
    let stalls ← Op.check (checkedAdd c.stalls 1)
    Op.update fun c => { c with stalls }
    return true
  else
    Op.say .sync .debug fun _ =>
      let current := s!"current {c.generation}, {c.state.name}"
      s!"Sync: spurious completion for stall {generation} ignored ({current})"
    return false

/-- Counts cycles of the main unit unless it is stalled; answers whether they were counted. -/
def advance (cycles : UInt32) : Op StallControl Bool := do
  let c ← Op.device
  if c.isStalled then
    return false
  else
    let gatedCycles ← Op.check (checkedAdd c.gatedCycles cycles.toUInt64)
    Op.update fun c => { c with gatedCycles }
    return true

/-- How a stall control is read. -/
def record : Json.Record StallControl :=
  (Json.Record.of mk).field "state" |>.optional "owner" |>.field "gated_cycles"
    |>.field "stalls" |>.field "generation"

instance : Json.Stored StallControl where
  encode c := .object [
    ("state", Json.encode c.state),
    ("owner", Json.encode c.owner),
    ("gated_cycles", Json.encode c.gatedCycles),
    ("stalls", Json.encode c.stalls),
    ("generation", Json.encode c.generation)]
  decode := record.decode "SyncController"

instance : Json.LawfulStored StallControl where
  decode_encode _ := Json.Record.decode_object (by simp [record])

end StallControl

end CardComputer
