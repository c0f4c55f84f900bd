import CardComputer.Op
import CardComputer.Text.Hex

/-!
# Select lines

A byte on port P1 drives eight lines. Each line strobes one column of the keypad and, at the same
time, enables one grid of the display.
-/

namespace CardComputer

/-- The register that drives the select lines. -/
structure SelectLines where
  /-- The lines as a byte, line 0 the lowest bit. -/
  select : UInt8
deriving DecidableEq

namespace SelectLines

/-- Whether a byte asserts a line. -/
def isSet (select : UInt8) (line : Nat) : Bool :=
  select.toNat.testBit line

/-- The lines that a byte asserts, in ascending order. -/
def asserted (select : UInt8) : List (Fin 8) :=
  (List.finRange 8).filter fun line => isSet select line

/-- A line is asserted exactly if its bit is set. -/
@[simp]
theorem mem_asserted {select : UInt8} {line : Fin 8} :
    line ∈ asserted select ↔ isSet select line = true := by
  simp [asserted]

/-- No line asserted. -/
def none : SelectLines := ⟨0⟩

/-- Drives the lines with a new byte. -/
def drive (value : UInt8) : Op SelectLines Unit := do
  let lines ← Op.device
  if value ≠ lines.select then
    Op.say .bus .trace fun _ =>
      let old := Text.Hex.upper 2 lines.select.toNat
      let new := Text.Hex.upper 2 value.toNat
      s!"Matrix: select {old} -> {new}"
  if value = 0 then
    Op.say .bus .trace fun _ => "Matrix: no column or grid selected"
  Op.update fun _ => ⟨value⟩

/-- How select lines are read. -/
def record : Json.Record SelectLines :=
  (Json.Record.of mk).field "select"

instance : Json.Stored SelectLines where
  encode lines := .object [("select", Json.encode lines.select)]
  decode := record.decode "MatrixFabric"

instance : Json.LawfulStored SelectLines where
  decode_encode _ := Json.Record.decode_object (by simp [record])

end SelectLines

end CardComputer
