import CardComputer.Fault
import CardComputer.Panel.Segment

/-!
# Frames

A frame is what the eight grids of the display show at one moment. A dark grid shows no segment and
no lamp.
-/

namespace CardComputer

/-- What the grids show. -/
structure Frame where
  /-- The segment word of each grid. -/
  grids : Vector UInt16 8
deriving DecidableEq

namespace Frame

/-- The word of a dark grid. -/
def dark : UInt16 := 0

/-- The word of a grid; there is nothing to see past the last one. -/
def digit (f : Frame) (grid : Nat) : UInt16 :=
  f.grids[grid]?.getD dark

/-- The word of a grid, which has to exist. -/
def at? (f : Frame) (grid : Nat) : Except Fault UInt16 :=
  match f.grids[grid]? with
  | some word => .ok word
  | none => .error (.indexOutOfBounds 8 grid)

/-- The lamps that are lit, that of grid 0 the lowest bit. -/
def lamps (f : Frame) : Nat :=
  Segment.ofBits (f.grids.toList.map Segment.isLampLit)

/-- Whether every grid is dark. -/
def isBlank (f : Frame) : Bool :=
  f.grids.all fun word => word == dark

/-- How a frame is read. -/
def record : Json.Record Frame :=
  (Json.Record.of mk).field "grids"

instance : Json.Stored Frame where
  encode f := .object [("grids", Json.encode f.grids)]
  decode := record.decode "DisplayFrame"

instance : Json.LawfulStored Frame where
  decode_encode _ := Json.Record.decode_object (by simp [record])

end Frame

end CardComputer
