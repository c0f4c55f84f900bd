import CardComputer.Op
import CardComputer.Panel.Frame
import CardComputer.Panel.Lines

/-!
# The display

Segment words are put together in a register and committed to the grids that the select lines
enable. A grid keeps its word and the display tick of its last commit; it is visible as long as
fewer ticks than the decay window have passed since then.
-/

namespace CardComputer

/-- What was last committed to a grid. -/
structure Grid where
  segments : UInt16
  /-- The display tick of the last commit, if there was one. -/
  refreshedAt : Option UInt64
deriving DecidableEq

/-- The state of the display. -/
structure Display where
  /-- The segment word that is being put together. -/
  register : UInt16
  grids : Vector Grid 8
  /-- Display ticks so far. -/
  now : UInt64
  /-- How many ticks a grid stays visible. -/
  window : UInt64
deriving DecidableEq

namespace Grid

/-- A grid that nothing was committed to. -/
def unused : Grid := ⟨0, none⟩

/-- How a grid is read. -/
def record : Json.Record Grid :=
  (Json.Record.of mk).field "segments" |>.optional "refreshed_at"

instance : Json.Stored Grid where
  encode g := .object [
    ("segments", Json.encode g.segments),
    ("refreshed_at", Json.encode g.refreshedAt)]
  decode := record.decode "GridRecord"

instance : Json.LawfulStored Grid where
  decode_encode _ := Json.Record.decode_object (by simp [record])

end Grid

namespace Display

/-- A display on which nothing was shown yet; a window of no ticks counts as one tick. -/
def blank (window : UInt64) : Display where
  register := 0
  grids := Vector.replicate 8 .unused
  now := 0
  window := if window = 0 then 1 else window

/-- The display as at power-on, with the same window. -/
def reset (d : Display) : Display := blank d.window

/-- Writes the four bits of a port. -/
def latch (d : Display) (port : NibblePort) (value : UInt8) : Display :=
  { d with register := port.insert value d.register }

/-- The four bits of a port. -/
def nibble (d : Display) (port : NibblePort) : UInt8 :=
  port.extract d.register

/-- The display after its register was committed to every grid that a byte enables. -/
def committed (d : Display) (select : UInt8) : Display :=
  { d with grids := d.grids.mapFinIdx fun i g _ =>
      if SelectLines.isSet select i then ⟨d.register, some d.now⟩ else g }

/-- A commit replaces the records of the enabled grids and leaves the others alone. -/
@[simp]
theorem get_committed (d : Display) (select : UInt8) (grid : Fin 8) :
    (d.committed select).grids.get grid =
      if SelectLines.isSet select grid then ⟨d.register, some d.now⟩ else d.grids.get grid := by
  change (d.committed select).grids[grid.val] = if _ then _ else d.grids[grid.val]
  simp [committed]

/-- The message about a grid that is given another word. -/
def commitText (d : Display) (grid : Fin 8) : String :=
  let old := Text.Hex.upper 4 (d.grids.get grid).segments.toNat
  let new := Text.Hex.upper 4 d.register.toNat
  s!"Display: grid {grid} {old} -> {new} at tick {d.now}"

/-- Commits the register to every grid that a byte enables. -/
def commit (select : UInt8) : Op Display Unit := do
  let d ← Op.device
  -- The messages compare with the words before the commit.
  for grid in SelectLines.asserted select do
    if (d.grids.get grid).segments ≠ d.register then
      Op.say .display .trace fun _ => d.commitText grid
  Op.update fun d => d.committed select

/-- Whether a grid is visible at a tick. A commit in the future counts as one of this tick. -/
def isVisible (d : Display) (g : Grid) : Bool :=
  match g.refreshedAt with
  -- Natural subtraction stops at zero, so the age of a commit in the future is zero.
  | some at_ => d.now.toNat - at_.toNat < d.window.toNat
  | none => false

/-- What the grids show. -/
def frame (d : Display) : Frame :=
  ⟨d.grids.map fun g => if d.isVisible g then g.segments else Frame.dark⟩

/-- The grids that go dark with the current tick: those whose window ends now and that showed
something. -/
def decaying (d : Display) : List (Fin 8) :=
  (List.finRange 8).filter fun grid =>
    let g := d.grids.get grid
    match g.refreshedAt with
    | some at_ => at_.toNat + d.window.toNat = d.now.toNat && g.segments != Frame.dark
    | none => false

/-- The message about a grid that goes dark. -/
def decayText (d : Display) (grid : Fin 8) : String :=
  s!"Display: grid {grid} decayed at tick {d.now}"

/-- One display tick. -/
def tick : Op Display Unit := do
  let d ← Op.device
  let now ← Op.check (checkedAdd d.now 1)
  let d := { d with now }
  Op.update fun _ => d
  for grid in d.decaying do
    Op.say .display .debug fun _ => d.decayText grid

/-- How a display is read. -/
def record : Json.Record Display :=
  (Json.Record.of mk).field "register" |>.field "grids" |>.field "now" |>.field "window"

instance : Json.Stored Display where
  encode d := .object [
    ("register", Json.encode d.register),
    ("grids", Json.encode d.grids),
    ("now", Json.encode d.now),
    ("window", Json.encode d.window)]
  decode := record.decode "DisplayBuffer"

instance : Json.LawfulStored Display where
  decode_encode _ := Json.Record.decode_object (by simp [record])

end Display

end CardComputer
