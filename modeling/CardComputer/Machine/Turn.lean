import CardComputer.Machine.Basic

/-!
# Turns

A machine goes on in turns: the next event happens, or one of the processors makes a step. The turn
belongs to whoever is furthest behind. At equal times events go first, then the coprocessor, then
the main unit, which has no turn while it is stalled.

Whoever has the turn before a time is behind that time (`Machine.turn?_eq_event`,
`Machine.turn?_eq_mcu`, `Machine.turn?_eq_main`).
-/

namespace CardComputer

/-- Whose turn it is. -/
inductive Turn where
  | event
  | mcu
  | main
deriving DecidableEq

namespace Machine

/-- The time that is never reached. -/
def never : UInt64 := 0xFFFFFFFFFFFFFFFF

/-- When the next event happens. -/
def eventDue (m : Machine) : UInt64 := m.timeline.nextTime?.getD never

/-- When the main unit steps next. -/
def mainDue (m : Machine) : UInt64 := if m.isStalled then never else m.mainTime

/-- When a processor steps next. -/
def unitDue (m : Machine) : UInt64 := min m.mainDue m.mcuTime

/-- Whose turn it is, if anything is to be done before a time. -/
def turn? (m : Machine) (target : UInt64) : Option Turn :=
  if target ≤ min m.unitDue m.eventDue then none
  else if m.eventDue ≤ m.unitDue then some .event
  else if m.mcuTime ≤ m.mainDue then some .mcu
  else some .main

/-! ## Events -/

/-- What an event does. -/
def dispatch (time : UInt64) : Event → Op Machine Unit
  | .barcodeShift => do
    Op.update fun m => { m with board := { m.board with scanner := m.board.scanner.tick } }
    scheduleAfter time (← Op.device).config.barcodeShiftCycles .barcodeShift
  | .displayTick => do
    onBoard (Board.onDisplay Display.tick)
    scheduleAfter time (← Op.device).config.displayTickCycles .displayTick
  | .cardSwipe code => onBoard (Board.onScanner (Scanner.swipe code))
  | .keyChange key pressed => do
    Op.say .input .debug fun _ =>
      let change := if pressed then "down" else "up"
      s!"BRC: {key.name} {change}"
    Op.update fun m => { m with board := m.board.setKey key pressed }
  | .speechDone generation => do
    if ← onBoard (Board.onStall (StallControl.complete generation)) then
      -- The main unit goes on where it stopped, but not before its stall ended.
      Op.update fun m => { m with mainTime := max m.mainTime time }

/-- The next event happens. -/
def takeEvent : Op Machine Unit := do
  match (← Op.device).timeline.pop? with
  | none => return ()
  | some (e, timeline) =>
    Op.update fun m => { m with now := e.time, timeline }
    dispatch e.time e.event

/-! ## Steps of the processors -/

/-- A processor makes a step on its bus; answers with the cycles it took, at least one. -/
def stepUnit (get : Machine → Processor) (set : Processor → Machine → Machine) (bus : Bus Board) :
    Op Machine UInt32 := do
  match (get (← Op.device)).fetch with
  | (none, p) =>
    Op.update (set p)
    return Processor.idleCycles
  | (some i, p) =>
    Op.update (set p)
    -- The script has moved on before the bus is reached.
    let read ← onBoard (i.access.perform bus)
    Op.update fun m => set ((get m).retire read) m
    return max i.cycles 1

/-- The sum of two times, at most `never`. -/
def addTime (a b : UInt64) : UInt64 :=
  UInt64.ofNat (min (a.toNat + b.toNat) never.toNat)

/-- Has the timer, if there is one, say when the word that was just spoken will be finished. -/
def timePlayback : Op Machine Unit := do
  match ← onBoard (Op.change Board.takePlayback) with
  | none => return ()
  | some word =>
    let m ← Op.device
    match m.timer with
    | none => return ()
    | some timer =>
      let us := timer.duration m.timed word
      -- The word begins when the step that spoke it is over.
      Op.update fun m => { m with timed := word :: m.timed }
      schedule (addTime m.mainTime (m.config.usToCycles us))
        (.speechDone m.board.stall.generation)

/-- The master cycles of a processor's cycles. -/
def masterCycles (cycles divider : UInt32) : UInt64 := cycles.toUInt64 * divider.toUInt64

/-- The coprocessor makes a step. -/
def takeMcu : Op Machine Unit := do
  Op.update fun m => { m with now := m.mcuTime, board := m.board.setTime m.mcuTime }
  let cycles ← stepUnit mcu (fun mcu m => { m with mcu }) Board.mcuBus
  let m ← Op.device
  let mcuTime ← Op.check (checkedAdd m.mcuTime (masterCycles cycles m.config.mcuDivider))
  Op.update fun m => { m with mcuTime }

/-- The main unit makes a step. -/
def takeMain : Op Machine Unit := do
  Op.update fun m => { m with now := m.mainTime, board := m.board.setTime m.mainTime }
  let cycles ← stepUnit main (fun main m => { m with main }) Board.mainBus
  -- The stall control sees the board after the step, so a step that begins a stall is not counted.
  let _ ← onBoard (Board.onStall (StallControl.advance cycles))
  let m ← Op.device
  let mainTime ← Op.check (checkedAdd m.mainTime (masterCycles cycles m.config.mainDivider))
  Op.update fun m => { m with mainTime }
  timePlayback

/-- Takes a turn. -/
def take : Turn → Op Machine Unit
  | .event => takeEvent
  | .mcu => takeMcu
  | .main => takeMain

/-! ## Whose turn it is -/

/-- If an event has the turn, there is a next one and it happens before the time. -/
theorem turn?_eq_event {m : Machine} {target : UInt64} (h : m.turn? target = some .event) :
    ∃ e rest, m.timeline.pop? = some (e, rest) ∧ e.time.toNat < target.toNat := by
  have due : m.eventDue.toNat < target.toNat := by
    unfold turn? at h
    split at h
    · cases h
    · rename_i hlt
      rw [UInt64.le_iff_toNat_le, toNat_min] at hlt
      split at h
      · rename_i hle
        rw [UInt64.le_iff_toNat_le] at hle
        omega
      · split at h <;> cases h
  -- An event that is due is not the one that never comes.
  cases hp : m.timeline.pop? with
  | none =>
    have : m.eventDue = never := by simp [eventDue, Timeline.pop?_eq_none hp]
    rw [this] at due
    have := target.toNat_lt
    simp [never] at due
    omega
  | some popped =>
    obtain ⟨e, rest⟩ := popped
    refine ⟨e, rest, rfl, ?_⟩
    simpa [eventDue, Timeline.pop?_time hp] using due

/-- If the coprocessor has the turn, its step is before the time. -/
theorem turn?_eq_mcu {m : Machine} {target : UInt64} (h : m.turn? target = some .mcu) :
    m.mcuTime.toNat < target.toNat := by
  unfold turn? at h
  split at h
  · cases h
  · rename_i hlt
    split at h
    · cases h
    · rename_i hev
      split at h
      · rename_i hle
        rw [UInt64.le_iff_toNat_le, toNat_min] at hlt
        rw [UInt64.le_iff_toNat_le] at hle hev
        unfold unitDue at hlt hev
        rw [toNat_min] at hlt hev
        omega
      · cases h

/-- If the main unit has the turn, it is not stalled and its step is before the time. -/
theorem turn?_eq_main {m : Machine} {target : UInt64} (h : m.turn? target = some .main) :
    m.isStalled = false ∧ m.mainTime.toNat < target.toNat := by
  unfold turn? at h
  split at h
  · cases h
  · rename_i hlt
    split at h
    · cases h
    · rename_i hev
      split at h
      · cases h
      · rename_i hle
        rw [UInt64.le_iff_toNat_le, toNat_min] at hlt
        rw [UInt64.le_iff_toNat_le] at hle hev
        unfold unitDue at hlt hev
        rw [toNat_min] at hlt hev
        -- If it were stalled, the coprocessor would have the turn.
        have hm := m.mcuTime.toNat_lt
        cases hs : m.isStalled with
        | true =>
          simp [mainDue, hs, never] at hle
          omega
        | false =>
          simp only [mainDue, hs, Bool.false_eq_true, if_false] at hlt hle hev
          exact ⟨rfl, by omega⟩

end Machine

end CardComputer
