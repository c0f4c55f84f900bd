import CardComputer.Proofs.Board.Unlogged
import CardComputer.Proofs.Machine.Saving

/-!
# Logging

A log observes a machine and never influences it. The same calls of a host to the same machine, with
any two logs, give the same answers and leave the same machine, or have the same fault
(`Machine.logging_observes`).

Nearly every operation is `Op.Unlogged`. A swipe is not: its message is put together only if it is
written, and that can fail if more half-bits are to come than a swipe has. Machines that a host can
reach are regular, so it does not fail there (`Machine.Regular.exists_swipeText`). Whatever may
swipe is therefore compared at regular machines only.
-/

namespace CardComputer.Machine

open Op

/-! ## The parts of a turn -/

theorem unlogged_onBoard {α : Type} {op : Op Board α} (h : Unlogged op) : Unlogged (onBoard op) :=
  unlogged_within h

theorem unlogged_schedule (time : UInt64) (event : Event) : Unlogged (schedule time event) := by
  refine unlogged_bind unlogged_device fun m => ?_
  exact unlogged_bind (unlogged_check _) fun timeline => unlogged_update _

theorem unlogged_scheduleAfter (time cycles : UInt64) (event : Event) :
    Unlogged (scheduleAfter time cycles event) := by
  apply unlogged_bind (unlogged_check _)
  intro due
  exact unlogged_schedule due event

/-- A step of a processor on a bus whose accesses do not depend on the log. -/
theorem unlogged_stepUnit {get : Machine → Processor} {set : Processor → Machine → Machine}
    {bus : Bus Board} (hbus : ∀ a : Access, Unlogged (a.perform bus)) :
    Unlogged (stepUnit get set bus) := by
  refine sim_stepUnit ?_ (fun p => unlogged_update _) fun a => unlogged_onBoard (hbus a)
  intro s t same
  exact congrArg get (Eq.symm same)

theorem unlogged_takeMcu : Unlogged takeMcu := by
  refine unlogged_bind (unlogged_update _) fun _ => ?_
  apply unlogged_bind (unlogged_stepUnit Board.unlogged_perform_mcuBus)
  intro cycles
  refine unlogged_bind unlogged_device fun m => ?_
  exact unlogged_bind (unlogged_check _) fun mcuTime => unlogged_update _

/-- Timing a word. -/
theorem unlogged_timePlayback : Unlogged timePlayback := by
  apply unlogged_bind (unlogged_onBoard (unlogged_change _))
  intro waiting
  cases waiting with
  | none => exact unlogged_pure _
  | some word =>
    refine unlogged_bind unlogged_device fun m => ?_
    -- The timer is a part of the machine.
    dsimp only
    cases m.timer with
    | none => exact unlogged_pure _
    | some timer => exact unlogged_bind (unlogged_update _) fun _ => unlogged_schedule _ _

theorem unlogged_takeMain : Unlogged takeMain := by
  refine unlogged_bind (unlogged_update _) fun _ => ?_
  apply unlogged_bind (unlogged_stepUnit Board.unlogged_perform_mainBus)
  intro cycles
  apply unlogged_bind (unlogged_onBoard (unlogged_within (StallControl.unlogged_advance cycles)))
  intro counted
  refine unlogged_bind unlogged_device fun m => ?_
  apply unlogged_bind (unlogged_check _)
  intro mainTime
  exact unlogged_bind (unlogged_update _) fun _ => unlogged_timePlayback

/-! ## Turns at regular machines -/

/-- The message about a swipe of a regular machine can be put together. -/
theorem Regular.exists_swipeText {m : Machine} (h : m.Regular) (code : CardCode) :
    ∃ message, m.board.scanner.swipeText code () = .ok message :=
  Scanner.exists_swipeText code h.scanner

/-- A machine with two logs, whose scanner is not ahead of a whole swipe. -/
def SameScanning (s t : Observed Machine) : Prop :=
  SameDevice s t ∧ s.device.board.scanner.remaining ≤ Swipe.halfBits.toUInt8

/-- A regular machine with two logs. -/
def SameRegular (s t : Observed Machine) : Prop :=
  SameDevice s t ∧ s.device.Regular

/-- A swipe. -/
theorem sim_swipe_logs (code : CardCode) :
    Sim Strict SameScanning SameDevice (· = ·) (onBoard (Board.onScanner (Scanner.swipe code)))
      (onBoard (Board.onScanner (Scanner.swipe code))) := by
  rintro ⟨m, log⟩ ⟨m', log'⟩ ⟨hsame, hle⟩
  obtain rfl : m = m' := hsame
  -- With either log the scanner ends up loaded.
  have swiped (log : Log) : ∃ log', onBoard (Board.onScanner (Scanner.swipe code)) ⟨m, log⟩ =
      .ok () ⟨{ m with board := { m.board with scanner := .loaded code } }, log'⟩ := by
    obtain ⟨log', h⟩ := Scanner.swipe_eq_ok_of_le (s := ⟨m.board.scanner, log⟩) code hle
    exact ⟨log', within_eq_ok.2 ⟨_, within_eq_ok.2 ⟨_, h, rfl⟩, rfl⟩⟩
  obtain ⟨_, h⟩ := swiped log
  obtain ⟨_, h'⟩ := swiped log'
  rw [h, h']
  exact .ok rfl rfl

/-- What an event does. -/
theorem sim_dispatch_logs (time : UInt64) (event : Event) :
    Sim Strict SameScanning SameDevice (· = ·) (dispatch time event) (dispatch time event) := by
  cases event with
  | cardSwipe code => exact sim_swipe_logs code
  | barcodeShift =>
    refine Sim.and_pre (unlogged_bind (unlogged_update _) fun _ => ?_)
    exact unlogged_bind unlogged_device fun m => unlogged_scheduleAfter _ _ _
  | displayTick =>
    apply Sim.and_pre
    apply unlogged_bind (unlogged_onBoard (unlogged_within Display.unlogged_tick))
    intro _
    exact unlogged_bind unlogged_device fun m => unlogged_scheduleAfter _ _ _
  | keyChange key pressed =>
    exact Sim.and_pre (unlogged_bind unlogged_say fun _ => unlogged_update _)
  | speechDone generation =>
    apply Sim.and_pre
    apply unlogged_bind
      (unlogged_onBoard (unlogged_within (StallControl.unlogged_complete generation)))
    intro ended
    exact unlogged_ite (unlogged_update _) (unlogged_pure _)

theorem sim_takeEvent_logs :
    Sim Strict SameScanning SameDevice (· = ·) takeEvent takeEvent := by
  refine sim_bind sim_device ?_
  rintro _ _ ⟨s, t, ⟨hsame, -⟩, rfl, rfl⟩
  rw [show t.device = s.device from hsame.symm]
  cases s.device.timeline.pop? with
  | none => exact Sim.and_pre (unlogged_pure _)
  | some popped =>
    obtain ⟨e, rest⟩ := popped
    refine sim_bind (sim_update ?_) fun _ _ _ => sim_dispatch_logs e.time e.event
    -- Taking an entry off the timeline does nothing to the scanner.
    rintro ⟨m, log⟩ ⟨m', log'⟩ ⟨hsame, hle⟩
    obtain rfl : m = m' := hsame
    exact ⟨rfl, hle⟩

/-- A turn, which leaves a regular machine. -/
theorem agree_take_logs {target : UInt64} {turn : Turn} {s t : Observed Machine}
    (h : SameRegular s t) (ht : s.device.turn? target = some turn) :
    Agree Strict (· = ·) SameRegular (take turn s) (take turn t) := by
  obtain ⟨hsame, hregular⟩ := h
  have htake : Agree Strict (· = ·) SameDevice (take turn s) (take turn t) := by
    cases turn with
    | event => exact sim_takeEvent_logs s t ⟨hsame, hregular.scanner⟩
    | mcu => exact unlogged_takeMcu s t hsame
    | main => exact unlogged_takeMain s t hsame
  apply htake.and_left
  intro _ s' hs'
  exact hregular.effect (effect_of_take ht hs')

/-! ## Runs -/

/-- The turns before a time. -/
theorem sim_turns_logs (target : UInt64) :
    Sim Strict SameRegular SameRegular (· = ·) (turns target) (turns target) := by
  have hturns : Sim Strict SameRegular (fun s t => SameRegular s t ∧ s.device.turn? target = none)
      (· = ·) (turns target) (turns target) := by
    apply sim_turns
    · intro s t h
      rw [show s.device = t.device from h.1]
    · intro s t turn h ht
      exact agree_take_logs h ht
  exact hturns.mono (fun _ _ h => h) (fun _ _ h => h) fun _ _ h => h.1

theorem sim_runUntil_logs (target : UInt64) :
    Sim Strict SameRegular SameDevice (· = ·) (runUntil target) (runUntil target) := by
  rw [runUntil_eq]
  refine sim_bind (sim_turns_logs target) fun _ _ _ => ?_
  exact Sim.and_pre (unlogged_update _)

/-- A frame, of which the log does not decide what it shows. -/
theorem sim_stepFrame_logs :
    Sim Strict SameRegular SameDevice (· = ·) stepFrame stepFrame := by
  -- Looking at a machine and checking a sum change nothing, so the machine stays regular.
  have look : Sim Strict SameRegular SameRegular (· = ·) device device := by
    rintro s t h
    exact .ok h.1 h
  refine sim_bind look ?_
  rintro m _ rfl
  have run : Sim Strict SameRegular SameDevice (· = ·) (runFor m.config.frameCycles)
      (runFor m.config.frameCycles) := by
    refine sim_bind look ?_
    rintro m' _ rfl
    refine sim_bind sim_check ?_
    rintro target _ rfl
    exact sim_runUntil_logs target
  apply sim_bind run
  intro _ _ _
  exact unlogged_bind unlogged_device fun m' => unlogged_pure _

/-! ## Calls -/

theorem unlogged_request (r : Request) : Unlogged r.perform := by
  cases r with
  | install timer => exact unlogged_update _
  | swipe code => exact unlogged_bind unlogged_device fun m => unlogged_schedule _ _
  | setKey key pressed => exact unlogged_bind unlogged_device fun m => unlogged_schedule _ _
  | speechDone => exact unlogged_bind unlogged_device fun m => unlogged_schedule _ _
  | pressReset => exact unlogged_bind unlogged_say fun _ => unlogged_update _

theorem unlogged_load (v : Json) : Unlogged (load v) := by
  refine unlogged_bind unlogged_device fun m => ?_
  apply unlogged_bind (unlogged_check _)
  intro read
  cases read with
  | error e => exact unlogged_pure _
  | ok snapshot => exact unlogged_bind (unlogged_update _) fun _ => unlogged_pure _

/-- A machine with a history and two logs. -/
def SameReached (s t : Observed Machine) : Prop :=
  SameDevice s t ∧ ∃ past, History past s.device

/-- A call answers the same whatever the log, and leaves a machine with a history. -/
theorem sim_call_logs {c : Call} (origin : ∀ saved, c = .load saved → ∃ past, History past saved) :
    Sim Strict SameReached SameReached (· = ·) c.perform c.perform := by
  rintro s t ⟨hsame, past, hs⟩
  have hregular : SameRegular s t := ⟨hsame, hs.regular⟩
  have hcall : Agree Strict (· = ·) SameDevice (c.perform s) (c.perform t) := by
    cases c with
    | request r => exact unlogged_bind (unlogged_request r) (fun _ => unlogged_pure _) s t hsame
    | reset => exact unlogged_bind (unlogged_update _) (fun _ => unlogged_pure _) s t hsame
    | runUntil target =>
      exact sim_bind (sim_runUntil_logs target) (fun _ _ _ => unlogged_pure _) s t hregular
    | stepFrame =>
      refine sim_bind sim_stepFrame_logs ?_ s t hregular
      rintro frame _ rfl
      exact unlogged_pure _
    | load saved =>
      exact unlogged_bind (unlogged_load saved.save) (fun _ => unlogged_pure _) s t hsame
  apply hcall.and_left
  intro a s' hs'
  exact hs.perform origin hs'

/-- Calls one after the other. -/
theorem sim_performAll_logs {calls : List Call}
    (origin : ∀ saved, .load saved ∈ calls → ∃ past, History past saved) :
    Sim Strict SameReached SameReached (· = ·) (performAll calls) (performAll calls) := by
  -- Each call starts at a machine with a history, which the one before has continued.
  induction calls with
  | nil => exact sim_pure rfl
  | cons c calls ih =>
    have first : Sim Strict SameReached SameReached (· = ·) c.perform c.perform := by
      apply sim_call_logs
      intro saved h
      exact origin saved (h ▸ List.mem_cons_self)
    refine sim_bind first ?_
    rintro answer _ rfl
    refine sim_bind (ih fun saved h => origin saved (List.mem_cons_of_mem c h)) ?_
    rintro answers _ rfl
    exact sim_pure rfl

/-- Logging observes and never influences. The same calls to a machine with a history, with any two
logs, give the same answers and leave the same machine, or have the same fault; what they load was
saved by machines with a history. And the message about a swipe, the only one of which a part is
computed with a check, can always be put together. -/
theorem logging_observes {past : List Machine} {m : Machine} (hm : History past m) :
    (∀ calls : List Call, (∀ saved, .load saved ∈ calls → ∃ past, History past saved) →
      ∀ log log', Agree Strict (· = ·) SameDevice
        (performAll calls ⟨m, log⟩) (performAll calls ⟨m, log'⟩)) ∧
    ∀ code, ∃ message, m.board.scanner.swipeText code () = .ok message := by
  constructor
  · intro calls origin log log'
    have start : SameReached ⟨m, log⟩ ⟨m, log'⟩ := ⟨rfl, past, hm⟩
    exact (sim_performAll_logs origin _ _ start).mono (fun _ _ h => h) fun _ _ h => h.1
  · exact hm.regular.exists_swipeText

/-- A log that wants every message, but lets only three of each category through. -/
def chatty : Log := (Log.fresh.setGlobalLevel .trace).setRateLimit 3

/-- A reader that is swiped a second card in the middle of the first one, and is then brought back
to power-on, with a log that tells of it and with one that does not. -/
theorem reader_observed :
    Agree Strict (· = ·) SameDevice
      (performAll [.request (.swipe ⟨0x2A, by decide⟩), .runUntil 20,
        .request (.swipe ⟨0x55, by decide⟩), .runUntil 30, .load reader] ⟨reader, .fresh⟩)
      (performAll [.request (.swipe ⟨0x2A, by decide⟩), .runUntil 20,
        .request (.swipe ⟨0x55, by decide⟩), .runUntil 30, .load reader] ⟨reader, chatty⟩) := by
  have hm : History [] reader := .build _ _ _ _ _
  refine (logging_observes hm).1 _ (fun saved hmem => ?_) _ _
  obtain rfl : saved = reader := by simpa using hmem
  exact ⟨[], hm⟩

end CardComputer.Machine
