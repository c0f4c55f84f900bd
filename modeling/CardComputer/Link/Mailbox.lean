import CardComputer.Op
import CardComputer.Text.Hex

/-!
# The mailbox

The main unit, here the host, and the coprocessor exchange bytes through two buffers, one for each
direction. A buffer's full flag is set by the write and cleared by the read on the other side; both
flags can be read in the status byte. With each byte the host passes on whether it is a command.
-/

namespace CardComputer

/-- The state of the mailbox. -/
structure Mailbox where
  /-- The byte for the coprocessor. -/
  input : UInt8
  /-- The byte for the host. -/
  output : UInt8
  /-- Whether the host has not read `output` yet. -/
  outputFull : Bool
  /-- Whether the coprocessor has not read `input` yet. -/
  inputFull : Bool
  /-- A flag that the coprocessor sets. -/
  flag0 : Bool
  /-- Whether the host wrote its last byte as a command. -/
  flag1 : Bool
  /-- The upper half of the status byte. -/
  userStatus : UInt8
deriving DecidableEq

namespace Mailbox

/-- Both buffers empty and all flags clear. -/
def empty : Mailbox := ⟨0, 0, false, false, false, false, 0⟩

/-- A bit of the status byte. -/
def statusBit (flag : Bool) (bit : UInt8) : UInt8 :=
  if flag then bit else 0

/-- The status byte. -/
def status (m : Mailbox) : UInt8 :=
  m.userStatus &&& 0xF0 ||| statusBit m.outputFull 0x01 ||| statusBit m.inputFull 0x02
    ||| statusBit m.flag0 0x04 ||| statusBit m.flag1 0x08

/-- The host reads data. -/
def takeOutput (m : Mailbox) : UInt8 × Mailbox :=
  (m.output, { m with outputFull := false })

/-- The host writes data or a command. -/
def putInput (m : Mailbox) (command : Bool) (value : UInt8) : Mailbox :=
  { m with input := value, inputFull := true, flag1 := command }

/-- The coprocessor reads what the host wrote. -/
def takeInput (m : Mailbox) : UInt8 × Mailbox :=
  (m.input, { m with inputFull := false })

/-- The coprocessor writes data for the host. -/
def putOutput (m : Mailbox) (value : UInt8) : Mailbox :=
  { m with output := value, outputFull := true }

/-- The coprocessor writes the status byte, of which the upper half is kept. -/
def setStatus (m : Mailbox) (value : UInt8) : Mailbox :=
  { m with userStatus := value &&& 0xF0 }

/-- The coprocessor sets or clears its flag. -/
def setFlag0 (m : Mailbox) (state : Bool) : Mailbox :=
  { m with flag0 := state }

/-- The host reads: the status byte, or data. -/
def hostRead (fromStatus : Bool) : Op Mailbox UInt8 := do
  let m ← Op.device
  if fromStatus then
    return m.status
  else
    if !m.outputFull then
      Op.say .sync .trace fun _ => "Mailbox: host read with empty output buffer"
    -- An empty buffer answers all the same, with the byte that was read last.
    Op.change takeOutput

/-- The message about a byte that is overwritten before it was read. -/
def overwriteText (m : Mailbox) (value : UInt8) : String :=
  let old := Text.Hex.upper 2 m.input.toNat
  let new := Text.Hex.upper 2 value.toNat
  s!"Mailbox: host overwrote unread {old} with {new}"

/-- The host writes data or a command. -/
def hostWrite (command : Bool) (value : UInt8) : Op Mailbox Unit := do
  let m ← Op.device
  if m.inputFull then
    Op.say .sync .debug fun _ => m.overwriteText value
  -- A byte that was not read yet is lost.
  Op.update fun m => m.putInput command value

/-- How a mailbox is read. -/
def record : Json.Record Mailbox :=
  (Json.Record.of mk).field "input" |>.field "output" |>.field "obf" |>.field "ibf"
    |>.field "f0" |>.field "f1" |>.field "user_status"

instance : Json.Stored Mailbox where
  encode m := .object [
    ("input", Json.encode m.input),
    ("output", Json.encode m.output),
    ("obf", Json.encode m.outputFull),
    ("ibf", Json.encode m.inputFull),
    ("f0", Json.encode m.flag0),
    ("f1", Json.encode m.flag1),
    ("user_status", Json.encode m.userStatus)]
  decode := record.decode "Mailbox"

instance : Json.LawfulStored Mailbox where
  decode_encode _ := Json.Record.decode_object (by simp [record])

end Mailbox

end CardComputer
