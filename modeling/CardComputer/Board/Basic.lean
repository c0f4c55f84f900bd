import CardComputer.Board.Port
import CardComputer.Card.Scanner
import CardComputer.Config.Model
import CardComputer.Link.Mailbox
import CardComputer.Link.Stall
import CardComputer.Panel.Expander
import CardComputer.Panel.Keypad

/-!
# The board

Everything the two processors share: scanner, keypad, select lines, display, expander, mailbox and
the stall control of the main unit. The coprocessor reaches it through its ports (`Board.portIn`,
`Board.portOut`), the main unit through the mailbox and, on models with speech, through a window in
its memory (`Board.speak`).
-/

namespace CardComputer

/-- The state of the board. -/
structure Board where
  model : Model
  scanner : Scanner
  lines : SelectLines
  display : Display
  /-- The expander through which the display is written. -/
  expander : Expander
  mailbox : Mailbox
  /-- The stall control of the main unit. -/
  stall : StallControl
  keypad : Keypad
  /-- The level of the tone output. -/
  speaker : Bool
  /-- The master time of the current access. -/
  now : UInt64
  /-- The word that the speech unit was given and that was not timed yet. -/
  playback : Option UInt8
deriving DecidableEq

namespace Board

/-- The board at power-on. -/
def powerOn (model : Model) (window : UInt64) : Board where
  model
  scanner := .idle
  lines := .none
  display := .blank window
  expander := .idle
  mailbox := .empty
  stall := .fresh
  keypad := .released
  speaker := false
  now := 0
  playback := none

/-- The board as at power-on, with the same model and decay window. -/
def reset (b : Board) : Board where
  model := b.model
  scanner := .idle
  lines := .none
  display := b.display.reset
  expander := .idle
  mailbox := .empty
  stall := .fresh
  keypad := .released
  speaker := false
  now := 0
  playback := none

/-! ## Operations on the parts -/

section Parts

variable {α : Type}

/-- Operates on the scanner. -/
def onScanner (op : Op Scanner α) : Op Board α :=
  op.within scanner fun scanner b => { b with scanner }

/-- Operates on the select lines. -/
def onLines (op : Op SelectLines α) : Op Board α :=
  op.within lines fun lines b => { b with lines }

/-- Operates on the display. -/
def onDisplay (op : Op Display α) : Op Board α :=
  op.within display fun display b => { b with display }

/-- Operates on the display and the expander. -/
def onExpander (op : Op ExpandedDisplay α) : Op Board α :=
  op.within (fun b => ⟨b.expander, b.display⟩)
    fun s b => { b with expander := s.expander, display := s.display }

/-- Operates on the mailbox. -/
def onMailbox (op : Op Mailbox α) : Op Board α :=
  op.within mailbox fun mailbox b => { b with mailbox }

/-- Operates on the stall control. -/
def onStall (op : Op StallControl α) : Op Board α :=
  op.within stall fun stall b => { b with stall }

end Parts

/-- Sets the master time of the current access. -/
def setTime (now : UInt64) (b : Board) : Board := { b with now }

/-- Presses or releases a key. -/
def setKey (k : Key) (pressed : Bool) (b : Board) : Board :=
  { b with keypad := b.keypad.setKey k pressed }

/-- Takes the word that was not timed yet. -/
def takePlayback (b : Board) : Option UInt8 × Board :=
  (b.playback, { b with playback := none })

/-- Whether the speech unit is busy. -/
def isSpeechBusy (b : Board) : Bool := b.stall.isStalled

/-- The main unit gives the speech unit a word, which is dropped while another is being played. -/
def speak (word : UInt8) : Op Board Unit := do
  if ← onStall (StallControl.begin .speech) then
    Op.say .sync .debug fun _ =>
      let digits := Text.Hex.upper 2 word.toNat
      s!"Speech: word {digits}"
    Op.update fun b => { b with playback := some word }

/-! ## The coprocessor's ports -/

/-- The level of T1: high for two master cycles, then low for two. -/
def t1 (b : Board) : Bool :=
  b.now / 2 &&& 1 == 0

/-- A level as the byte that a port shows for it. -/
def levelByte (level : Bool) : UInt8 :=
  if level then 1 else 0

/-- The bit of port P7 that drives the tone output. -/
def toneMask : UInt8 := 0x02

/-- What follows a write to a port of the expander: the display is committed, and on models without
speech P7 drives the tone output. -/
def nibbleWritten (port : NibblePort) : Op Board Unit := do
  let b ← Op.device
  -- Every write commits the whole segment word, not only the port that was written.
  onDisplay (Display.commit b.lines.select)
  if port = .p7 ∧ !b.model.hasSpeech then
    Op.update fun b => { b with speaker := b.display.nibble .p7 &&& toneMask != 0 }

/-- The coprocessor reads a port. -/
def portIn : Port → Op Board UInt8
  | .p1 => return (← Op.device).lines.select
  | .p2 => do
    let b ← Op.device
    -- The expander drives the lower half, the row lines the upper one.
    return b.expander.readP2 ||| b.keypad.rows b.lines.select <<< 4
  | .expander port => return (← Op.device).display.nibble port
  | .t0 => return levelByte (← Op.device).scanner.sense
  | .t1 => return levelByte (← Op.device).t1
  | .prog => return 0xFF
  | .dbb => onMailbox (Op.change Mailbox.takeInput)
  | .sts => return (← Op.device).mailbox.status
  | .f0 => return levelByte ((← Op.device).mailbox.status &&& 0x04 != 0)

/-- The coprocessor writes a port. -/
def portOut (port : Port) (value : UInt8) : Op Board Unit := do
  match port with
  | .p1 =>
    onLines (SelectLines.drive value)
    -- The lines that are driven enable the grids of the display.
    onDisplay (Display.commit value)
  | .p2 => Op.update fun b => { b with expander := b.expander.writeP2 value }
  | .expander nibble =>
    Op.update fun b => { b with display := b.display.latch nibble value }
    nibbleWritten nibble
  | .prog =>
    match ← onExpander (ExpandedDisplay.setProg (value &&& 1 != 0)) with
    | some nibble => nibbleWritten nibble
    | none => return ()
  | .dbb => Op.update fun b => { b with mailbox := b.mailbox.putOutput value }
  | .sts => Op.update fun b => { b with mailbox := b.mailbox.setStatus value }
  | .f0 => Op.update fun b => { b with mailbox := b.mailbox.setFlag0 (value &&& 1 != 0) }
  | .t0 | .t1 =>
    Op.say .stubs .debug fun _ =>
      let digits := Text.Hex.upper 2 value.toNat
      s!"MCU: write {digits} to input pin {port.name} ignored"

/-! ## Stored form -/

/-- How a board is read. -/
def record : Json.Record Board :=
  (Json.Record.of mk).field "model" |>.field "scanner" |>.field "fabric" |>.field "display"
    |>.field "expander" |>.field "mailbox" |>.field "sync" |>.field "keypad" |>.field "speaker"
    |>.field "now" |>.optional "playback"

instance : Json.Stored Board where
  encode b := .object [
    ("model", Json.encode b.model),
    ("scanner", Json.encode b.scanner),
    ("fabric", Json.encode b.lines),
    ("display", Json.encode b.display),
    ("expander", Json.encode b.expander),
    ("mailbox", Json.encode b.mailbox),
    ("sync", Json.encode b.stall),
    ("keypad", Json.encode b.keypad),
    ("speaker", Json.encode b.speaker),
    ("now", Json.encode b.now),
    ("playback", Json.encode b.playback)]
  decode := record.decode "CardIo"

instance : Json.LawfulStored Board where
  decode_encode _ := Json.Record.decode_object (by simp [record])

end Board

end CardComputer
