import CardComputer.Proofs.Machine.Saving

/-!
# Going onward

A host that lets no run go back in time brings a machine from power-on to machines that have gone
onward (`Machine.Onward`). They are told together with the cards that were swiped since power-on and
when, the latest first. Such a machine has a history (`Machine.Onward.history`), and so has every
machine in the middle of its runs.
-/

namespace CardComputer.Machine

open Op

/-- The swipes of a machine after a request at a time, the latest first. -/
def Request.swiped (r : Request) (now : UInt64) (swipes : List (CardCode × UInt64)) :
    List (CardCode × UInt64) :=
  match r with
  | swipe code => (code, now) :: swipes
  | _ => swipes

/-- A machine that a host has brought from power-on to where it is between two calls, without a run
to a time before the present, and the swipes it has made, with their times. -/
inductive Onward : List (CardCode × UInt64) → Machine → Prop
  | build (config : Config) (valid : config.Valid) (main mcu : Processor)
    (timer : Option PlaybackTimer) : Onward [] (build config valid main mcu timer)
  | request {swipes : List (CardCode × UInt64)} {m m' : Machine} {r : Request} {log log' : Log}
    (before : Onward swipes m) (h : r.perform ⟨m, log⟩ = .ok () ⟨m', log'⟩) :
    Onward (r.swiped m.now swipes) m'
  | runUntil {swipes : List (CardCode × UInt64)} {m m' : Machine} {target : UInt64}
    {log log' : Log} (before : Onward swipes m) (forward : m.now ≤ target)
    (h : runUntil target ⟨m, log⟩ = .ok () ⟨m', log'⟩) : Onward swipes m'
  | stepFrame {swipes : List (CardCode × UInt64)} {m m' : Machine} {frame : Frame} {log log' : Log}
    (before : Onward swipes m) (h : stepFrame ⟨m, log⟩ = .ok frame ⟨m', log'⟩) : Onward swipes m'
  /-- A reset is a new beginning. -/
  | reset {swipes : List (CardCode × UInt64)} {m : Machine} (before : Onward swipes m) :
    Onward [] m.reset
  /-- What was saved by a machine of the same configuration is loaded, or refused. -/
  | load {swipes swipes' : List (CardCode × UInt64)} {m m' saved : Machine} {log log' : Log}
    (before : Onward swipes m) (origin : Onward swipes' saved) (config : saved.config = m.config)
    (h : load saved.save ⟨m, log⟩ = .ok (.ok ()) ⟨m', log'⟩) : Onward swipes' m'

/-- A machine in the middle of a run to a time that is not before the present, and the swipes that
were made before the run. -/
inductive Running (target : UInt64) (swipes : List (CardCode × UInt64)) : Machine → Prop
  | start {m : Machine} (before : Onward swipes m) (forward : m.now ≤ target) :
    Running target swipes m
  | turn {m m' : Machine} {turn : Turn} {log log' : Log} (before : Running target swipes m)
    (ht : m.turn? target = some turn) (h : take turn ⟨m, log⟩ = .ok () ⟨m', log'⟩) :
    Running target swipes m'

section Onward

variable {swipes : List (CardCode × UInt64)} {m : Machine}

/-- A frame is a run that does not go back. -/
theorem forward_of_stepFrame {s s' : Observed Machine} {frame : Frame}
    (h : stepFrame s = .ok frame s') :
    ∃ target, s.device.now ≤ target ∧ runUntil target s = .ok () s' := by
  obtain ⟨target, htarget, hrun, -⟩ := runUntil_of_stepFrame h
  exact ⟨target, UInt64.le_iff_toNat_le.2 (by omega), hrun⟩

/-- A machine that has gone onward has a history. -/
theorem Onward.history (h : Onward swipes m) : ∃ past, History past m := by
  induction h with
  | build config valid main mcu timer => exact ⟨[], .build config valid main mcu timer⟩
  | @request swipes m m' r log log' before h ih =>
    obtain ⟨past, hpast⟩ := ih
    exact ⟨m :: past, hpast.move (.request h)⟩
  | runUntil before forward h ih =>
    obtain ⟨past, hpast⟩ := ih
    exact hpast.runUntil h
  | stepFrame before h ih =>
    obtain ⟨past, hpast⟩ := ih
    obtain ⟨target, -, hrun⟩ := forward_of_stepFrame h
    exact hpast.runUntil hrun
  | reset before ih =>
    obtain ⟨past, hpast⟩ := ih
    exact ⟨[], hpast.reset⟩
  | load before origin config h ih ih' =>
    obtain ⟨past, hpast⟩ := ih
    obtain ⟨past', hpast'⟩ := ih'
    exact ⟨past', .load hpast hpast' h⟩

/-- A machine in the middle of a run has a history, too. -/
theorem Running.history {target : UInt64} (h : Running target swipes m) :
    ∃ past, History past m := by
  induction h with
  | start before forward => exact before.history
  | turn before ht h ih =>
    obtain ⟨past, hpast⟩ := ih
    exact ⟨_, hpast.move (.turn ht h)⟩

end Onward

end CardComputer.Machine
