import CardComputer.Machine.Basic
import CardComputer.Json.Stored

/-!
# Saved machines

A saved machine holds the board, the timeline and the times (`Machine.Snapshot`); the processors and
the timer are not part of it. It can be loaded into a machine of the same model with the same decay
window. Loading reads the whole snapshot before it changes anything, so it either replaces all of
these parts or, with the reason (`Machine.LoadError`), none.
-/

namespace CardComputer.Machine

/-- The parts of a machine that are saved. -/
structure Snapshot where
  board : Board
  timeline : Timeline
  now : UInt64
  mainTime : UInt64
  mcuTime : UInt64
deriving DecidableEq

/-- The parts of a machine that are saved. -/
def snapshot (m : Machine) : Snapshot where
  board := m.board
  timeline := m.timeline
  now := m.now
  mainTime := m.mainTime
  mcuTime := m.mcuTime

/-- The machine with these parts replaced. -/
def restore (s : Snapshot) (m : Machine) : Machine :=
  { m with
    board := s.board
    timeline := s.timeline
    now := s.now
    mainTime := s.mainTime
    mcuTime := s.mcuTime }

@[simp]
theorem snapshot_restore (s : Snapshot) (m : Machine) : (restore s m).snapshot = s := rfl

@[simp]
theorem restore_snapshot (m : Machine) : restore m.snapshot m = m := rfl

/-- The tag of saved machines. -/
def savedSystem : String := "brc"

/-- The version of their form. -/
def savedVersion : UInt64 := 2

/-- What can keep a saved machine from being loaded. -/
inductive LoadError where
  /-- It has not the tag of saved machines. -/
  | otherSystem
  | otherVersion (version : UInt64)
  | otherModel (saved machine : Model)
  | otherWindow (saved machine : UInt64)
  | unreadable (error : Json.DecodeError)

/-- The text that reports an error. -/
def LoadError.message : LoadError → String
  | otherSystem => "not a BRC save state"
  | otherVersion version => s!"unsupported save state version {version}"
  | otherModel saved machine =>
    s!"save state is for {saved.title}, machine is {machine.title}"
  | otherWindow saved machine =>
    s!"save state decays after {saved} ticks, machine after {machine}"
  | unreadable error => error.message

/-! ## Writing -/

/-- The saved form of a machine. -/
def save (m : Machine) : Json :=
  .object [
    ("system", .text savedSystem),
    ("version", Json.encode savedVersion),
    ("model", Json.encode m.config.model),
    ("now", Json.encode m.now),
    ("main_time", Json.encode m.mainTime),
    ("mcu_time", Json.encode m.mcuTime),
    ("io", Json.encode m.board),
    ("scheduler", m.timeline.encode)]

/-! ## Reading -/

/-- Reads the value under a key; it is `null` if there is none. -/
def readPart {α : Type} [Json.Stored α] (key : String) (v : Json) : Except LoadError α :=
  (Json.decode (v.get key)).mapError .unreadable

/-- Whether a value has the tag of saved machines. -/
def hasSavedTag (v : Json) : Bool :=
  match v.get "system" with
  | .text s => s == savedSystem
  | _ => false

/-- Refuses a value that is not the saved form of a machine. -/
def checkSavedForm (v : Json) : Except LoadError Unit := do
  if !hasSavedTag v then throw .otherSystem
  let version ← readPart "version" v
  if version ≠ savedVersion then throw (.otherVersion version)

/-- Reads the board that a machine of a configuration can take over. -/
def readBoard (c : Config) (v : Json) : Except LoadError Board := do
  let board : Board ← readPart "io" v
  if board.model ≠ c.model then throw (.otherModel board.model c.model)
  let window := c.decayWindowTicks.toUInt64
  if board.display.window ≠ window then throw (.otherWindow board.display.window window)
  return board

/-- Reads the snapshot that a machine of a configuration can take over. Entries of the timeline that
can be read may still have a sequence number after which there is none; that is a fault. -/
def readSnapshot (c : Config) (v : Json) : ExceptT LoadError (Except Fault) Snapshot := do
  checkSavedForm v
  let board ← readBoard c v
  let entries ← readPart "scheduler" v
  -- All entries are read before they are numbered on, so what is unreadable goes before the fault.
  let timeline ← Timeline.ofEntries entries
  return {
    board
    timeline
    now := ← readPart "now" v
    mainTime := ← readPart "main_time" v
    mcuTime := ← readPart "mcu_time" v }

/-- Loads a saved machine. -/
def load (v : Json) : Op Machine (Except LoadError Unit) := do
  match ← Op.check (readSnapshot (← Op.device).config v).run with
  | .error e => return .error e
  | .ok s =>
    Op.update (restore s)
    return .ok ()

/-- Machines can be saved. -/
def supportsSaving : Bool := true

end CardComputer.Machine
