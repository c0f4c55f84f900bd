import CardComputer.Panel.Display

/-!
# The port expander

The coprocessor reaches the segment word through an expander on the lower half of port P2 and the
PROG pin. An access takes one pulse of PROG. When PROG falls, P2 holds the operation and the port;
when it rises, P2 holds the operand. A read is answered on P2 while PROG is low.
-/

namespace CardComputer

/-- What is done with a port of the expander. -/
inductive PortOp where
  | read
  | write
  | or
  | and
deriving DecidableEq

namespace PortOp

/-- The operations, in the order of their codes. -/
def all : List PortOp := [read, write, or, and]

/-- The name of an operation. -/
def name : PortOp → String
  | read => "Read"
  | write => "Write"
  | or => "Or"
  | and => "And"

instance : Json.Named PortOp := ⟨all, name⟩

instance : Json.LawfulNamed PortOp where
  find?_name a := by cases a <;> rfl

/-- The operation that the lower two bits of a byte select. -/
def ofBits (b : UInt8) : PortOp :=
  match b.toNat % 4 with
  | 0 => read
  | 1 => write
  | 2 => or
  | _ => and

/-- What an operation writes to a port, given what is there and the operand. -/
def result? (op : PortOp) (current operand : UInt8) : Option UInt8 :=
  match op with
  | read => none
  | write => some operand
  | or => some (current ||| operand)
  | and => some (current &&& operand)

end PortOp

/-- The state of the expander. -/
structure Expander where
  /-- The level of PROG. -/
  prog : Bool
  /-- The operation that was latched when PROG fell. -/
  pending : Option (PortOp × NibblePort)
  /-- What the coprocessor wrote to the lower half of P2. -/
  p2 : UInt8
  /-- What the expander drives onto P2 during a read. -/
  readData : Option UInt8
deriving DecidableEq

/-- A pulse that changes a port. -/
structure PortWrite where
  op : PortOp
  port : NibblePort
  /-- The four bits before. -/
  old : UInt8
  /-- What is written. -/
  new : UInt8
deriving DecidableEq

namespace Expander

/-- The expander at power-on. -/
def idle : Expander := ⟨true, none, 0x0F, none⟩

/-- The coprocessor writes P2, of which the lower half reaches the expander. -/
def writeP2 (e : Expander) (value : UInt8) : Expander :=
  { e with p2 := value &&& 0x0F }

/-- The lower half of P2 as the coprocessor reads it. -/
def readP2 (e : Expander) : UInt8 :=
  e.readData.getD e.p2 &&& 0x0F

/-- PROG falls: the operation is latched, and a read is answered. -/
def fall (e : Expander) (d : Display) : Expander :=
  -- The upper two of the four bits select the operation, the lower two the port.
  let op := PortOp.ofBits (e.p2 >>> 2)
  let port := NibblePort.ofBits e.p2
  let readData := if op = .read then some (d.nibble port) else e.readData
  { e with prog := false, pending := some (op, port), readData }

/-- PROG rises: the latched operation is over. -/
def rise (e : Expander) : Expander :=
  { e with prog := true, pending := none, readData := none }

/-- The change that the latched operation makes with the operand on P2. -/
def portWrite? (e : Expander) (d : Display) : Option PortWrite :=
  match e.pending with
  | some (op, port) =>
    let old := d.nibble port
    (op.result? old e.p2).map fun new => ⟨op, port, old, new⟩
  | none => none

end Expander

/-- The expander with the display whose segment word it writes. -/
structure ExpandedDisplay where
  expander : Expander
  display : Display
deriving DecidableEq

namespace PortWrite

/-- The message about a change to a port. -/
def text (w : PortWrite) : String :=
  let old := Text.Hex.upper 1 w.old.toNat
  let new := Text.Hex.upper 1 w.new.toNat
  s!"8243: {w.op.name} {w.port.name} {old} -> {new}"

end PortWrite

namespace ExpandedDisplay

/-- Drives PROG and answers with the port that this changes. A level that PROG already has does
nothing. -/
def setProg (level : Bool) : Op ExpandedDisplay (Option NibblePort) := do
  let s ← Op.device
  if s.expander.prog && !level then
    Op.update fun s => { s with expander := s.expander.fall s.display }
    return none
  else if !s.expander.prog && level then
    Op.update fun s => { s with expander := s.expander.rise }
    -- The operation is that of the expander before PROG rose.
    match s.expander.portWrite? s.display with
    | some w =>
      Op.say .bus .trace fun _ => w.text
      Op.update fun s => { s with display := s.display.latch w.port w.new }
      return some w.port
    | none => return none
  else return none

end ExpandedDisplay

namespace Expander

/-- How an expander is read. -/
def record : Json.Record Expander :=
  (Json.Record.of mk).field "prog" |>.optional "pending" |>.field "p2" |>.optional "read_data"

instance : Json.Stored Expander where
  encode e := .object [
    ("prog", Json.encode e.prog),
    ("pending", Json.encode e.pending),
    ("p2", Json.encode e.p2),
    ("read_data", Json.encode e.readData)]
  decode := record.decode "Expander"

instance : Json.LawfulStored Expander where
  decode_encode _ := Json.Record.decode_object (by simp [record])

end Expander

end CardComputer
