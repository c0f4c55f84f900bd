import CardComputer.Proofs.Machine.Twins

/-!
# Machines with other timers

A host may call a machine, and may offer it any value to be loaded (`Machine.HostAction`). In all
that follows the timer counts in one place only, where a word is timed. So two machines that differ
in nothing but timers that time all words alike (`Machine.Retimed`) stay such machines, give the
same answers, write the same messages and have the same faults (`Machine.untimed_hostActions`).
Machines with any two timers do the same until a word is timed (`Machine.sim_takeMain_swapped`).

Nothing is asked of the values here: what is loaded may be a state that no machine comes to.
-/

namespace CardComputer.Machine

open Op

/-! ## What a host does -/

/-- Something that a host does with a machine. -/
inductive HostAction where
  | call (c : Call)
  /-- Offers any value to be loaded. -/
  | load (v : Json)

/-- Carries out an action. -/
def HostAction.perform : HostAction → Op Machine Answer
  | call c => c.perform
  | load v => return .loaded (← Machine.load v)

/-- Carries out actions one after the other. -/
def hostActions : List HostAction → Op Machine (List Answer)
  | [] => return []
  | a :: actions => do
    let answer ← a.perform
    let answers ← hostActions actions
    return answer :: answers

/-! ## Other timers -/

/-- The machine with another timer that has timed some words. -/
def withTimer (timer : Option PlaybackTimer) (timed : List UInt8) (m : Machine) : Machine :=
  { m with timer, timed }

section Swapped

variable {α : Type} {R : Observed Machine → Observed Machine → Prop}
  {A : Option PlaybackTimer → List UInt8 → Option PlaybackTimer → List UInt8 → Prop}

/-- Two machines that differ in their timers only, which are related, with the same log. -/
def Swapped (A : Option PlaybackTimer → List UInt8 → Option PlaybackTimer → List UInt8 → Prop)
    (s t : Observed Machine) : Prop :=
  ∃ timer timed, t = ⟨s.device.withTimer timer timed, s.log⟩ ∧
    A s.device.timer s.device.timed timer timed

/-- What comes next may depend on all of the machine but the timer. -/
theorem sim_device_bind_swapped {next : Machine → Op Machine α}
    (h : ∀ m timer timed, next (m.withTimer timer timed) = next m)
    (hn : ∀ m, Sim Strict (Swapped A) R (· = ·) (next m) (next m)) :
    Sim Strict (Swapped A) R (· = ·) (Op.device >>= next) (Op.device >>= next) := by
  refine sim_bind sim_device ?_
  rintro _ _ ⟨s, t, ⟨timer, timed, rfl, -⟩, rfl, rfl⟩
  rw [h]
  exact hn _

theorem sim_update_swapped {f : Machine → Machine}
    (h : ∀ m timer timed, f (m.withTimer timer timed) = (f m).withTimer timer timed) :
    Sim Strict (Swapped A) (Swapped A) (· = ·) (Op.update f) (Op.update f) := by
  refine sim_update ?_
  rintro s _ ⟨timer, timed, rfl, related⟩
  -- A machine is one with its own timer, which shows that the change keeps it.
  have kept : f s.device = (f s.device).withTimer s.device.timer s.device.timed :=
    h s.device s.device.timer s.device.timed
  refine ⟨timer, timed, ?_, ?_⟩
  · dsimp only
    rw [h]
  · dsimp only
    rw [kept]
    exact related

/-- The timer is not on the board. -/
theorem sim_onBoard_swapped (op : Op Board α) :
    Sim Strict (Swapped A) (Swapped A) (· = ·) (onBoard op) (onBoard op) := by
  refine sim_within (sim_refl op) ?_ ?_
  · rintro s _ ⟨timer, timed, rfl, -⟩
    rfl
  · rintro s _ x _ ⟨timer, timed, rfl, related⟩ rfl
    exact ⟨timer, timed, rfl, related⟩

/-- A step of a processor. -/
theorem sim_stepUnit_swapped {get : Machine → Processor} {set : Processor → Machine → Machine}
    (hget : ∀ m timer timed, get (m.withTimer timer timed) = get m)
    (hset : ∀ p m timer timed,
      set p (m.withTimer timer timed) = (set p m).withTimer timer timed) (bus : Bus Board) :
    Sim Strict (Swapped A) (Swapped A) (· = ·) (stepUnit get set bus) (stepUnit get set bus) := by
  refine sim_stepUnit ?_ (fun p => sim_update_swapped (hset p)) fun a => sim_onBoard_swapped _
  rintro s _ ⟨timer, timed, rfl, -⟩
  exact hget s.device timer timed

/-- The main unit makes a step. Only the timing of a word, at its end, has to do with the timer. -/
theorem sim_takeMain_swapped (h : Sim Strict (Swapped A) R (· = ·) timePlayback timePlayback) :
    Sim Strict (Swapped A) R (· = ·) takeMain takeMain := by
  refine sim_bind (sim_update_swapped fun _ _ _ => rfl) fun _ _ _ => ?_
  refine sim_bind (sim_stepUnit_swapped (fun _ _ _ => rfl) (fun _ _ _ _ => rfl) _) ?_
  rintro cycles _ rfl
  refine sim_bind (sim_onBoard_swapped _) fun _ _ _ => ?_
  refine sim_device_bind_swapped (fun _ _ _ => rfl) fun m => ?_
  refine sim_bind sim_check ?_
  rintro mainTime _ rfl
  exact sim_bind (sim_update_swapped fun _ _ _ => rfl) fun _ _ _ => h

end Swapped

/-! ## Timers that time alike -/

/-- Two machines that differ in timers that time alike, with the same log. -/
def Retimed (s t : Observed Machine) : Prop :=
  ∃ timer timed, t = ⟨s.device.withTimer timer timed, s.log⟩ ∧
    TimeAlike s.device.timer s.device.timed timer timed

/-- What an operation does and answers does not depend on the timer as long as it times alike. -/
def Untimed {α : Type} (op : Op Machine α) : Prop := Sim Strict Retimed Retimed (· = ·) op op

section Rules

variable {α β : Type}

theorem untimed_pure (a : α) : Untimed (pure a) := sim_pure rfl

theorem untimed_bind {op : Op Machine α} {next : α → Op Machine β} (h : Untimed op)
    (hn : ∀ a, Untimed (next a)) : Untimed (op >>= next) :=
  sim_bind h fun a _ hab => hab ▸ hn a

/-- What comes next may depend on all of the machine but the timer. -/
theorem untimed_device_bind {next : Machine → Op Machine α}
    (h : ∀ m timer timed, next (m.withTimer timer timed) = next m) (hn : ∀ m, Untimed (next m)) :
    Untimed (Op.device >>= next) :=
  sim_device_bind_swapped h hn

theorem untimed_update {f : Machine → Machine}
    (h : ∀ m timer timed, f (m.withTimer timer timed) = (f m).withTimer timer timed) :
    Untimed (Op.update f) :=
  sim_update_swapped h

theorem untimed_check (value : Except Fault α) : Untimed (Op.check value) := sim_check

theorem untimed_say {c : Log.Category} {level : Log.Level} {text : Unit → String} :
    Untimed (Op.say c level text) := by
  refine sim_report_same ?_ ?_
  · rintro s _ ⟨timer, timed, rfl, -⟩
    rfl
  · rintro s _ log ⟨timer, timed, rfl, alike⟩
    exact ⟨timer, timed, rfl, alike⟩

theorem untimed_ite {c : Prop} [Decidable c] {op op' : Op Machine α} (h : Untimed op)
    (h' : Untimed op') : Untimed (if c then op else op') :=
  sim_ite (fun _ => h) fun _ => h'

/-- The timer is not on the board. -/
theorem untimed_onBoard (op : Op Board α) : Untimed (onBoard op) :=
  sim_onBoard_swapped op

end Rules

/-! ## Turns -/

theorem untimed_schedule (due : UInt64) (event : Event) : Untimed (schedule due event) :=
  untimed_device_bind (fun _ _ _ => rfl) fun _ =>
    untimed_bind (untimed_check _) fun _ => untimed_update fun _ _ _ => rfl

theorem untimed_scheduleAfter (time cycles : UInt64) (event : Event) :
    Untimed (scheduleAfter time cycles event) :=
  untimed_bind (untimed_check _) fun due => untimed_schedule due event

/-- What an event does. -/
theorem untimed_dispatch (time : UInt64) (event : Event) : Untimed (dispatch time event) := by
  cases event with
  | barcodeShift =>
    refine untimed_bind (untimed_update fun _ _ _ => rfl) fun _ => ?_
    exact untimed_device_bind (fun _ _ _ => rfl) fun _ => untimed_scheduleAfter _ _ _
  | displayTick =>
    refine untimed_bind (untimed_onBoard _) fun _ => ?_
    exact untimed_device_bind (fun _ _ _ => rfl) fun _ => untimed_scheduleAfter _ _ _
  | cardSwipe code => exact untimed_onBoard _
  | keyChange key pressed =>
    exact untimed_bind untimed_say fun _ => untimed_update fun _ _ _ => rfl
  | speechDone generation =>
    refine untimed_bind (untimed_onBoard _) fun ended => ?_
    exact untimed_ite (untimed_update fun _ _ _ => rfl) (untimed_pure _)

/-- The next event happens. -/
theorem untimed_takeEvent : Untimed takeEvent := by
  refine untimed_device_bind (fun _ _ _ => rfl) fun m => ?_
  cases m.timeline.pop? with
  | none => exact untimed_pure _
  | some popped =>
    exact untimed_bind (untimed_update fun _ _ _ => rfl) fun _ => untimed_dispatch _ _

/-- A step of a processor. -/
theorem untimed_stepUnit {get : Machine → Processor} {set : Processor → Machine → Machine}
    (hget : ∀ m timer timed, get (m.withTimer timer timed) = get m)
    (hset : ∀ p m timer timed,
      set p (m.withTimer timer timed) = (set p m).withTimer timer timed) (bus : Bus Board) :
    Untimed (stepUnit get set bus) :=
  sim_stepUnit_swapped hget hset bus

/-- The coprocessor makes a step. -/
theorem untimed_takeMcu : Untimed takeMcu := by
  refine untimed_bind (untimed_update fun _ _ _ => rfl) fun _ => ?_
  refine untimed_bind (untimed_stepUnit (fun _ _ _ => rfl) (fun _ _ _ _ => rfl) _) fun cycles => ?_
  refine untimed_device_bind (fun _ _ _ => rfl) fun m => ?_
  exact untimed_bind (untimed_check _) fun mcuTime => untimed_update fun _ _ _ => rfl

/-- A word is timed, alike. This is the one place where the timer counts. -/
theorem untimed_timePlayback : Untimed timePlayback := by
  refine untimed_bind (untimed_onBoard _) fun word => ?_
  cases word with
  | none => exact untimed_pure _
  | some word =>
    refine sim_bind sim_device ?_
    rintro _ _ ⟨⟨m, log⟩, _, ⟨timer, timed, rfl, alike⟩, rfl, rfl⟩
    -- The timers are compared as parts of the two machines.
    obtain ⟨config, valid, main, mcu, board, timeline, now, mainTime, mcuTime, own, timed₀⟩ := m
    cases alike with
    | none => exact untimed_pure _
    | @some own other _ _ h =>
      have noted : Untimed (Op.update fun m => { m with timed := word :: m.timed }) := by
        refine sim_update ?_
        rintro s _ ⟨timer, timed, rfl, alike⟩
        exact ⟨timer, word :: timed, rfl, alike.cons word⟩
      have word_eq : own.duration timed₀ word = other.duration timed word := h [] word
      refine sim_bind noted fun _ _ _ => ?_
      show Sim _ _ _ _
        (schedule (addTime mainTime (config.usToCycles (own.duration timed₀ word))) _)
        (schedule (addTime mainTime (config.usToCycles (other.duration timed word))) _)
      rw [word_eq]
      exact untimed_schedule _ _

/-- The main unit makes a step. -/
theorem untimed_takeMain : Untimed takeMain := sim_takeMain_swapped untimed_timePlayback

/-- A turn, whoever has it. -/
theorem untimed_take (turn : Turn) : Untimed (take turn) := by
  cases turn with
  | event => exact untimed_takeEvent
  | mcu => exact untimed_takeMcu
  | main => exact untimed_takeMain

/-! ## Runs and calls -/

theorem untimed_runUntil (target : UInt64) : Untimed (runUntil target) := by
  rw [runUntil_eq]
  have turns : Untimed (turns target) := by
    refine (sim_turns ?_ fun s t turn hst _ => untimed_take turn s t hst).mono (fun _ _ h => h)
      (fun _ _ h => h) fun _ _ h => h.1
    -- Whose turn it is does not depend on the timer.
    rintro s _ ⟨timer, timed, rfl, -⟩
    rfl
  exact untimed_bind turns fun _ => untimed_update fun _ _ _ => rfl

theorem untimed_stepFrame : Untimed stepFrame := by
  have run (cycles : UInt64) : Untimed (runFor cycles) :=
    untimed_device_bind (fun _ _ _ => rfl) fun _ =>
      untimed_bind (untimed_check _) fun target => untimed_runUntil target
  refine untimed_device_bind (fun _ _ _ => rfl) fun _ => untimed_bind (run _) fun _ => ?_
  exact untimed_device_bind (fun _ _ _ => rfl) fun _ => untimed_pure _

/-- A request. -/
theorem untimed_request (r : Request) : Untimed r.perform := by
  cases r with
  | install timer =>
    -- A new timer has timed nothing yet.
    refine sim_update ?_
    rintro s _ ⟨_, _, rfl, -⟩
    exact ⟨some timer, [], rfl, .refl _ _⟩
  | swipe code => exact untimed_device_bind (fun _ _ _ => rfl) fun _ => untimed_schedule _ _
  | setKey key pressed => exact untimed_device_bind (fun _ _ _ => rfl) fun _ => untimed_schedule _ _
  | speechDone => exact untimed_device_bind (fun _ _ _ => rfl) fun _ => untimed_schedule _ _
  | pressReset => exact untimed_bind untimed_say fun _ => untimed_update fun _ _ _ => rfl

/-- What is read of any value depends on the configuration only. -/
theorem untimed_load (v : Json) : Untimed (load v) := by
  refine untimed_device_bind (fun _ _ _ => rfl) fun m => ?_
  refine untimed_bind (untimed_check _) fun read => ?_
  cases read with
  | error e => exact untimed_pure _
  | ok snapshot => exact untimed_bind (untimed_update fun _ _ _ => rfl) fun _ => untimed_pure _

/-- A call, with what it answers. -/
theorem untimed_call (c : Call) : Untimed c.perform := by
  cases c with
  | request r => exact untimed_bind (untimed_request r) fun _ => untimed_pure _
  | reset => exact untimed_bind (untimed_update fun _ _ _ => rfl) fun _ => untimed_pure _
  | runUntil target => exact untimed_bind (untimed_runUntil target) fun _ => untimed_pure _
  | stepFrame => exact untimed_bind untimed_stepFrame fun _ => untimed_pure _
  | load saved => exact untimed_bind (untimed_load _) fun _ => untimed_pure _

/-- Whatever a host does, a machine with another timer that times alike does the same. -/
theorem untimed_hostActions (actions : List HostAction) : Untimed (hostActions actions) := by
  induction actions with
  | nil => exact untimed_pure _
  | cons a actions ih =>
    have first : Untimed a.perform := by
      cases a with
      | call c => exact untimed_call c
      | load v => exact untimed_bind (untimed_load v) fun _ => untimed_pure _
    exact untimed_bind first fun _ => untimed_bind ih fun _ => untimed_pure _

end CardComputer.Machine
