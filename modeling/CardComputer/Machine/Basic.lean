import CardComputer.Config.Basic
import CardComputer.Processor
import CardComputer.Timeline.Basic

/-!
# The machine

Two processors, the board between them and a timeline of events share one master clock. Each
processor has a time of its own, that of its next step.

A machine is only built from a valid configuration (`Machine.build?`). Its host swipes cards,
presses keys and reports that a word was spoken; all this goes through the timeline, at the present.
-/

namespace CardComputer

/-- Says how long the speech unit needs for a word, in microseconds, given the words that were timed
before, the latest first. -/
structure PlaybackTimer where
  /-- The microseconds for a word. -/
  duration : List UInt8 → UInt8 → UInt64

/-- The timer that gives every word the same time. -/
def PlaybackTimer.fixed (us : UInt64) : PlaybackTimer := ⟨fun _ _ => us⟩

/-- The state of a machine. -/
structure Machine where
  config : Config
  valid : config.Valid
  main : Processor
  mcu : Processor
  board : Board
  /-- The pending events. -/
  timeline : Timeline
  /-- The master clock. -/
  now : UInt64
  /-- When the main unit steps next, unless it is stalled. -/
  mainTime : UInt64
  /-- When the coprocessor steps next. -/
  mcuTime : UInt64
  /-- What times the words of the speech unit; without it the host does. -/
  timer : Option PlaybackTimer
  /-- The words that were timed, the latest first. -/
  timed : List UInt8

namespace Machine

/-- Operates on the board. -/
def onBoard {α : Type} (op : Op Board α) : Op Machine α :=
  op.within board fun board m => { m with board }

/-- Schedules an event. -/
def schedule (time : UInt64) (event : Event) : Op Machine Unit := do
  let timeline ← Op.check ((← Op.device).timeline.schedule time event)
  Op.update fun m => { m with timeline }

/-- Schedules an event some cycles after a time. -/
def scheduleAfter (time cycles : UInt64) (event : Event) : Op Machine Unit := do
  schedule (← Op.check (checkedAdd time cycles)) event

/-- The two periodic events of a configuration, each after its first period. -/
def firstEvents (c : Config) : List Entry :=
  [⟨c.barcodeShiftCycles, 0, .barcodeShift⟩, ⟨c.displayTickCycles, 1, .displayTick⟩]

/-- The timeline at power-on. -/
def powerOnTimeline (c : Config) : Timeline :=
  -- Two numbers were given out, so the next one is the third.
  { (firstEvents c).foldl Timeline.insert .empty with nextSeq := 2 }

/-- The machine at power-on. -/
def build (config : Config) (valid : config.Valid) (main mcu : Processor)
    (timer : Option PlaybackTimer) : Machine :=
  { config, valid, main, mcu, timer
    board := .powerOn config.model config.decayWindowTicks.toUInt64
    timeline := powerOnTimeline config
    now := 0
    mainTime := 0
    mcuTime := 0
    timed := [] }

/-- The machine at power-on, or the problem of its configuration. -/
def build? (config : Config) (main mcu : Processor) (timer : Option PlaybackTimer) :
    Except Config.Problem Machine :=
  match h : config.problem? with
  | some p => .error p
  | none => .ok (build config h main mcu timer)

/-! ## The host -/

/-- Installs a timer, which has timed nothing yet. -/
def install (timer : PlaybackTimer) (m : Machine) : Machine :=
  { m with timer := some timer, timed := [] }

/-- Swipes a card. -/
def swipe (c : CardCode) : Op Machine Unit := do
  schedule (← Op.device).now (.cardSwipe c)

/-- Presses or releases a key. -/
def setKey (k : Key) (pressed : Bool) : Op Machine Unit := do
  schedule (← Op.device).now (.keyChange k pressed)

/-- Reports that the current word was spoken. The report is good for the current stall only. -/
def speechDone : Op Machine Unit := do
  let m ← Op.device
  schedule m.now (.speechDone m.board.stall.generation)

/-- Presses the reset button: both processors start over and the mailbox is emptied. -/
def pressReset : Op Machine Unit := do
  Op.say .cpu .info fun _ => "BRC: reset button"
  Op.update fun m => { m with
    main := m.main.reset
    mcu := m.mcu.reset
    board := { m.board with mailbox := .empty } }

/-- Switches the machine off and on again. Its configuration and its timer stay, and so do the
scripts, reads and counts of its processors. -/
def reset (m : Machine) : Machine :=
  { m with
    main := m.main.reset
    mcu := m.mcu.reset
    board := m.board.reset
    timeline := powerOnTimeline m.config
    now := 0
    mainTime := 0
    mcuTime := 0 }

/-- Whether the main unit is stalled. -/
def isStalled (m : Machine) : Bool := m.board.stall.isStalled

/-- What the display shows. -/
def frame (m : Machine) : Frame := m.board.display.frame

end Machine

end CardComputer
