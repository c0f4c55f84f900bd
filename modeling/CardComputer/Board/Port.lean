import CardComputer.Panel.Segment
import CardComputer.Text.Hex

/-!
# Ports of the coprocessor

The addresses in the coprocessor's port space that the board decodes.
-/

namespace CardComputer

/-- A port of the coprocessor. -/
inductive Port where
  /-- The select lines. -/
  | p1
  /-- The expander's bus below, the row lines of the keypad above. -/
  | p2
  /-- A port of the expander, reached directly. -/
  | expander (port : NibblePort)
  /-- The card sensor. -/
  | t0
  /-- The master clock, divided by four and inverted. -/
  | t1
  /-- The strobe of the expander. -/
  | prog
  /-- The buffers of the mailbox. -/
  | dbb
  /-- The status byte of the mailbox. -/
  | sts
  /-- The coprocessor's flag in the mailbox. -/
  | f0
deriving DecidableEq

namespace Port

/-- The port at an address. -/
def ofAddress? (address : UInt8) : Option Port :=
  match address.toNat with
  | 0x01 => some p1
  | 0x02 => some p2
  | 0x04 => some (expander .p4)
  | 0x05 => some (expander .p5)
  | 0x06 => some (expander .p6)
  | 0x07 => some (expander .p7)
  | 0x10 => some t0
  | 0x11 => some t1
  | 0x12 => some prog
  | 0x20 => some dbb
  | 0x21 => some sts
  | 0x22 => some f0
  | _ => none

/-- The address of a port. -/
def address : Port → UInt8
  | p1 => 0x01
  | p2 => 0x02
  | expander port => 0x04 + UInt8.ofNat port.index
  | t0 => 0x10
  | t1 => 0x11
  | prog => 0x12
  | dbb => 0x20
  | sts => 0x21
  | f0 => 0x22

/-- The name of a port in messages. -/
def name : Port → String
  | p1 => "P1"
  | p2 => "P2"
  | expander port => s!"Expander({port.name})"
  | t0 => "T0"
  | t1 => "T1"
  | prog => "Prog"
  | dbb => "Dbb"
  | sts => "Sts"
  | f0 => "F0"

/-- The report of an address without a port. -/
def unknownMessage (address : UInt8) : String :=
  let digits := Text.Hex.lower 2 address.toNat
  s!"Unknown coprocessor port 0x{digits}"

theorem ofAddress?_address (p : Port) : ofAddress? p.address = some p := by
  cases p with
  | expander port => cases port <;> rfl
  | _ => rfl

end Port

end CardComputer
