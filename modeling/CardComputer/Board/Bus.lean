import CardComputer.Board.Basic

/-!
# Buses

A processor reaches its surroundings through a bus with a memory space of 16-bit addresses and a
port space of 8-bit addresses. Where nothing answers, reads float high and writes have no effect.
-/

namespace CardComputer

/-- What a processor reaches. -/
structure Bus (σ : Type) where
  load : UInt16 → Op σ UInt8
  store : UInt16 → UInt8 → Op σ Unit
  input : UInt8 → Op σ UInt8
  output : UInt8 → UInt8 → Op σ Unit

namespace Bus

/-- What is read where nothing answers. -/
def floating : UInt8 := 0xFF

/-- A bus on which nothing answers. -/
def unconnected (σ : Type) : Bus σ where
  load _ := return floating
  store _ _ := return ()
  input _ := return floating
  output _ _ := return ()

end Bus

namespace Board

/-- The coprocessor's bus: it reaches the ports of the board and no memory. -/
def mcuBus : Bus Board where
  load := (Bus.unconnected Board).load
  store := (Bus.unconnected Board).store
  input address :=
    match Port.ofAddress? address with
    | some port => portIn port
    | none => do
      Op.say .bus .debug fun _ =>
        let digits := Text.Hex.upper 2 address.toNat
        s!"MCU: read from unmapped port {digits}"
      return Bus.floating
  output address value :=
    match Port.ofAddress? address with
    | some port => portOut port value
    | none =>
      Op.say .bus .debug fun _ =>
        let digits := Text.Hex.upper 2 address.toNat
        let byte := Text.Hex.upper 2 value.toNat
        s!"MCU: write {byte} to unmapped port {digits}"

/-- The first address of the speech unit in the main unit's memory. -/
def speechBase : UInt16 := 0xE000

/-- Whether the speech unit answers at an address of the main unit's memory. -/
def answersAt (b : Board) (address : UInt16) : Bool :=
  speechBase ≤ address && b.model.hasSpeech

/-- The main unit's bus. In memory it reaches the speech unit, whose busy line is the lowest bit of
what is read. Of a port address only the lowest bit counts: it tells the status and commands of the
mailbox from its data. -/
def mainBus : Bus Board where
  load address := do
    let b ← Op.device
    if b.answersAt address then
      return 0xFE ||| levelByte b.isSpeechBusy
    else
      Op.say .stubs .trace fun _ =>
        let digits := Text.Hex.upper 4 address.toNat
        s!"Main: read from unmapped address {digits}"
      return Bus.floating
  store address value := do
    if (← Op.device).answersAt address then
      speak (value &&& 0x3F)
    else
      Op.say .stubs .trace fun _ =>
        let digits := Text.Hex.upper 4 address.toNat
        let byte := Text.Hex.upper 2 value.toNat
        s!"Main: write {byte} to unmapped address {digits}"
  input address := onMailbox (Mailbox.hostRead (address &&& 1 != 0))
  output address value := onMailbox (Mailbox.hostWrite (address &&& 1 != 0) value)

end Board

end CardComputer
