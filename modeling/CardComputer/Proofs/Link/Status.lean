import CardComputer.Link.Mailbox

/-!
# The status byte

A mask selects some bits of the status byte, each of which is that of its flag whatever the others
are (`Mailbox.status_and`). So the flags can be read off the status byte one by one.
-/

namespace CardComputer.Mailbox

theorem or_and_right (a b c : UInt8) : (a ||| b) &&& c = a &&& c ||| b &&& c :=
  UInt8.toBitVec_inj.1 BitVec.and_or_distrib_right

/-- A bit that a mask takes away. -/
@[simp]
theorem statusBit_zero (flag : Bool) : statusBit flag 0 = 0 := by
  simp [statusBit]

/-- A mask is applied to the bit. -/
theorem statusBit_and (flag : Bool) (bit mask : UInt8) :
    statusBit flag bit &&& mask = statusBit flag (bit &&& mask) := by
  cases flag with
  | false => simp [statusBit]
  | true => simp [statusBit]

theorem statusBit_bne_zero (flag : Bool) {bit : UInt8} (hbit : bit ≠ 0) :
    (statusBit flag bit != 0) = flag := by
  cases flag with
  | false => simp [statusBit]
  | true => simp [statusBit, hbit]

/-- A mask is applied to every part of the status byte. -/
theorem status_and (m : Mailbox) (mask : UInt8) :
    m.status &&& mask = m.userStatus &&& (0xF0 &&& mask) ||| statusBit m.outputFull (0x01 &&& mask)
      ||| statusBit m.inputFull (0x02 &&& mask) ||| statusBit m.flag0 (0x04 &&& mask)
      ||| statusBit m.flag1 (0x08 &&& mask) := by
  simp only [status, or_and_right, statusBit_and, UInt8.and_assoc]

/-- The output buffer's full flag in a status byte. -/
def showsOutput (status : UInt8) : Bool := status &&& 0x01 != 0

/-- The input buffer's full flag in a status byte. -/
def showsInput (status : UInt8) : Bool := status &&& 0x02 != 0

theorem showsOutput_status (m : Mailbox) : showsOutput m.status = m.outputFull := by
  -- The mask takes away the upper half and every bit but one.
  have h : m.status &&& 0x01 = statusBit m.outputFull 0x01 := by
    calc
      _ = m.userStatus &&& 0 ||| statusBit m.outputFull 0x01 ||| statusBit m.inputFull 0
          ||| statusBit m.flag0 0 ||| statusBit m.flag1 0 := m.status_and 0x01
      _ = statusBit m.outputFull 0x01 := by simp
  rw [showsOutput, h]
  exact statusBit_bne_zero _ (by decide)

theorem showsInput_status (m : Mailbox) : showsInput m.status = m.inputFull := by
  have h : m.status &&& 0x02 = statusBit m.inputFull 0x02 := by
    calc
      _ = m.userStatus &&& 0 ||| statusBit m.outputFull 0 ||| statusBit m.inputFull 0x02
          ||| statusBit m.flag0 0 ||| statusBit m.flag1 0 := m.status_and 0x02
      _ = statusBit m.inputFull 0x02 := by simp
  rw [showsInput, h]
  exact statusBit_bne_zero _ (by decide)

/-- The coprocessor's flag stands in the status byte whatever else does. -/
theorem flag0_of_status (m : Mailbox) : (m.status &&& 0x04 != 0) = m.flag0 := by
  have h : m.status &&& 0x04 = statusBit m.flag0 0x04 := by
    calc
      _ = m.userStatus &&& 0 ||| statusBit m.outputFull 0 ||| statusBit m.inputFull 0
          ||| statusBit m.flag0 0x04 ||| statusBit m.flag1 0 := m.status_and 0x04
      _ = statusBit m.flag0 0x04 := by simp
  rw [h]
  exact statusBit_bne_zero _ (by decide)

end CardComputer.Mailbox
