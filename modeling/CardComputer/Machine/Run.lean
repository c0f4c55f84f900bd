import CardComputer.Machine.Agenda

/-!
# Running the machine

`Machine.runUntil` takes turns until nothing is to be done before a given time. It always ends,
because every turn leaves less to do (`Machine.work_take_lt`); only a fault ends it early.
-/

namespace CardComputer.Machine

/-- Takes turns until nothing is to be done before a time. -/
def runTurns (target : UInt64) (s : Observed Machine) :
    EStateM.Result Fault (Observed Machine) Unit :=
  match _ht : s.device.turn? target with
  | none => .ok () s
  | some turn =>
    match _h : take turn s with
    | .ok () t => runTurns target t
    | .error fault t => .error fault t
termination_by s.device.agenda.work target
decreasing_by exact work_take_lt _ht _h

/-- The machine at a time before which nothing is to be done. A stalled main unit catches up, since
it cannot step earlier when its stall ends. -/
def arrive (target : UInt64) (m : Machine) : Machine :=
  { m with
    now := target
    mainTime := if m.isStalled then max m.mainTime target else m.mainTime }

/-- Runs everything that is to be done before a time. -/
def runUntil (target : UInt64) : Op Machine Unit := do
  runTurns target
  Op.update (arrive target)

/-- Runs for a number of cycles. -/
def runFor (cycles : UInt64) : Op Machine Unit := do
  runUntil (← Op.check (checkedAdd (← Op.device).now cycles))

/-- Runs for a sixtieth of a second and shows what the display shows then. -/
def stepFrame : Op Machine Frame := do
  runFor (← Op.device).config.frameCycles
  return (← Op.device).frame

end CardComputer.Machine
