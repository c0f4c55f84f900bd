import CardComputer.Proofs.Config.Cycles
import CardComputer.Proofs.Machine.CaughtUp
import CardComputer.Proofs.Machine.Timers

/-!
# Playback times

A step of the main unit does the same whatever timer a machine has, up to the timing of a word: then
the two machines have a completion each, of which only the times differ, and a word that takes
longer is not finished earlier (`Machine.agree_takeMain`). This completes what is to be known of
cycles where they decide something (`Machine.cycle_arithmetic_exact`): whether a configuration is
valid, and when a stall ends.
-/

namespace CardComputer

open Op

/-- Whether an event can be scheduled does not depend on its time. -/
theorem Timeline.schedule_cases (t : Timeline) (time time' : UInt64) (event : Event) :
    (∃ timeline timeline', t.schedule time event = .ok timeline ∧
      t.schedule time' event = .ok timeline') ∨
    ∃ fault, t.schedule time event = .error fault ∧ t.schedule time' event = .error fault := by
  unfold schedule
  cases checkedAdd t.nextSeq 1 with
  | ok nextSeq => exact .inl ⟨_, _, rfl, rfl⟩
  | error fault => exact .inr ⟨fault, rfl, rfl⟩

namespace Machine

/-! ## Completions -/

/-- When a word of some microseconds will have been spoken, if it begins at the time of the main
unit. -/
def completionTime (m : Machine) (us : UInt64) : UInt64 :=
  addTime m.mainTime (m.config.usToCycles us)

/-- A word that takes longer is not finished earlier, also where times are cut off. -/
theorem completionTime_mono (m : Machine) {us us' : UInt64} (longer : us ≤ us') :
    m.completionTime us ≤ m.completionTime us' := by
  have cycles := Config.usToCycles_mono (UInt32.le_refl m.config.masterClockHz) longer
  rw [UInt64.le_iff_toNat_le] at cycles ⊢
  -- Either sum may be cut off, the greater one first.
  rw [completionTime, completionTime, toNat_addTime, toNat_addTime]
  omega

section AfterStep

variable (a : PlaybackTimer) (as : List UInt8) (b : PlaybackTimer) (bs : List UInt8)

/-- Two machines after the same step of the main unit, with a timer `a` that had timed the words
`as` and with a timer `b` that had timed the words `bs`. -/
inductive AfterStep : Observed Machine → Observed Machine → Prop
  /-- No word was timed. The machines differ in their timers only. -/
  | untimed (m : Machine) (log : Log) :
      AfterStep ⟨m.withTimer (some a) as, log⟩ ⟨m.withTimer (some b) bs, log⟩
  /-- Each timer timed the same word. The machines differ in the times of the completions as well,
  and if the word takes longer with the second timer, its completion is not earlier there. -/
  | timed {m : Machine} {word : UInt8} {timeline timeline' : Timeline} (log : Log)
      (first : m.timeline.schedule (m.completionTime (a.duration as word))
        (.speechDone m.board.stall.generation) = .ok timeline)
      (second : m.timeline.schedule (m.completionTime (b.duration bs word))
        (.speechDone m.board.stall.generation) = .ok timeline')
      (later : a.duration as word ≤ b.duration bs word →
        m.completionTime (a.duration as word) ≤ m.completionTime (b.duration bs word)) :
      AfterStep ⟨{ m with timeline }.withTimer (some a) (word :: as), log⟩
        ⟨{ m with timeline := timeline' }.withTimer (some b) (word :: bs), log⟩

end AfterStep

/-! ## The same step with different timers -/

section Steps

variable {m : Machine} {log : Log}

/-- An event for which there is a number is scheduled. -/
theorem schedule_of_ok {time : UInt64} {event : Event} {timeline : Timeline}
    (h : m.timeline.schedule time event = .ok timeline) :
    schedule time event ⟨m, log⟩ = .ok () ⟨{ m with timeline }, log⟩ := by
  unfold schedule
  rw [bind_of_ok (device_eq_ok.2 ⟨rfl, rfl⟩), bind_of_ok (check_eq_ok.2 ⟨h, rfl⟩)]
  rfl

/-- An event for which there is none is not. -/
theorem schedule_of_error {time : UInt64} {event : Event} {fault : Fault}
    (h : m.timeline.schedule time event = .error fault) :
    schedule time event ⟨m, log⟩ = .error fault ⟨m, log⟩ := by
  unfold schedule
  rw [bind_of_ok (device_eq_ok.2 ⟨rfl, rfl⟩), h]
  rfl

/-- The machine without the word that waited to be timed. -/
def mute (m : Machine) : Machine := { m with board := { m.board with playback := none } }

/-- Without a word nothing is timed. -/
theorem timePlayback_of_none (h : m.board.playback = none)
    (timer : Option PlaybackTimer) (timed : List UInt8) :
    timePlayback ⟨m.withTimer timer timed, log⟩ = .ok () ⟨m.mute.withTimer timer timed, log⟩ := by
  have answer : onBoard (Op.change Board.takePlayback) ⟨m.withTimer timer timed, log⟩ =
      .ok none ⟨m.mute.withTimer timer timed, log⟩ := by
    rw [← h]
    rfl
  unfold timePlayback
  rw [bind_of_ok answer]
  rfl

/-- A word is timed, and its completion is scheduled. -/
theorem timePlayback_of_some {word : UInt8} (h : m.board.playback = some word)
    (timer : PlaybackTimer) (timed : List UInt8) :
    timePlayback ⟨m.withTimer (some timer) timed, log⟩ =
      schedule (m.completionTime (timer.duration timed word)) (.speechDone m.board.stall.generation)
        ⟨m.mute.withTimer (some timer) (word :: timed), log⟩ := by
  have answer : onBoard (Op.change Board.takePlayback) ⟨m.withTimer (some timer) timed, log⟩ =
      .ok (some word) ⟨m.mute.withTimer (some timer) timed, log⟩ := by
    rw [← h]
    rfl
  unfold timePlayback
  rw [bind_of_ok answer]
  rfl

end Steps

section Timers

variable (m : Machine) (log : Log) (a : PlaybackTimer) (as : List UInt8) (b : PlaybackTimer)
  (bs : List UInt8)

/-- A word is timed by each timer in its own way. -/
theorem agree_timePlayback : Agree Strict (· = ·) (AfterStep a as b bs)
    (timePlayback ⟨m.withTimer (some a) as, log⟩)
    (timePlayback ⟨m.withTimer (some b) bs, log⟩) := by
  cases waiting : m.board.playback with
  | none =>
    rw [timePlayback_of_none waiting, timePlayback_of_none waiting]
    exact .ok rfl (.untimed m.mute log)
  | some word =>
    rw [timePlayback_of_some waiting, timePlayback_of_some waiting]
    -- Both completions take the next number, if there is one.
    rcases m.timeline.schedule_cases (m.completionTime (a.duration as word))
      (m.completionTime (b.duration bs word)) (.speechDone m.board.stall.generation) with
      ⟨timeline, timeline', first, second⟩ | ⟨fault, first, second⟩
    · rw [schedule_of_ok (m := m.mute.withTimer _ _) first,
        schedule_of_ok (m := m.mute.withTimer _ _) second]
      exact .ok rfl (.timed (m := m.mute) log first second m.mute.completionTime_mono)
    · rw [schedule_of_error (m := m.mute.withTimer _ _) first,
        schedule_of_error (m := m.mute.withTimer _ _) second]
      exact .fault

/-- The machines have the timers `a` and `b`, which have timed the words `as` and `bs`. -/
def Between (timer : Option PlaybackTimer) (timed : List UInt8) (timer' : Option PlaybackTimer)
    (timed' : List UInt8) : Prop :=
  timer = some a ∧ timed = as ∧ timer' = some b ∧ timed' = bs

/-- A step of the main unit does the same with either timer, up to the timing of a word. -/
theorem agree_takeMain : Agree Strict (· = ·) (AfterStep a as b bs)
    (takeMain ⟨m.withTimer (some a) as, log⟩) (takeMain ⟨m.withTimer (some b) bs, log⟩) := by
  -- The timers stay what they are until the step comes to the timing.
  refine sim_takeMain_swapped (A := Between a as b bs) ?_ _ _
    ⟨some b, bs, rfl, rfl, rfl, rfl, rfl⟩
  rintro ⟨m, log⟩ _ ⟨_, _, rfl, first, rfl, rfl, rfl⟩
  -- The first machine is one with the timer that it has.
  have own : m.withTimer (some a) m.timed = m := by
    rw [← show m.timer = some a from first]
    rfl
  have agree := agree_timePlayback m log a m.timed b
  rw [own] at agree
  exact agree _

end Timers

/-! ## Cycles -/

/-- The arithmetic of cycles is exact wherever it decides something. As long as the product of
microseconds and clock fits in 64 bits, which it does for every period of a configuration, the
cycles are the quotient of natural numbers. Otherwise they are never too many, and neither more
microseconds nor a faster clock ever gives fewer. So the valid configurations are those whose clock,
dividers and window are not zero and whose periods are not shorter than a cycle as natural numbers.
And a step of the main unit does the same with any two timers up to the timing of a word, which is
not finished earlier if it takes longer. -/
theorem cycle_arithmetic_exact (c : Config) :
    (∀ us : UInt64, us.toNat * c.masterClockHz.toNat < 2 ^ 64 →
      (c.usToCycles us).toNat = us.toNat * c.masterClockHz.toNat / 10 ^ 6) ∧
    (∀ us : UInt32, us.toUInt64.toNat * c.masterClockHz.toNat < 2 ^ 64 ∧
      (c.usToCycles us.toUInt64).toNat = us.toNat * c.masterClockHz.toNat / 10 ^ 6) ∧
    (∀ us : UInt64, (c.usToCycles us).toNat ≤ us.toNat * c.masterClockHz.toNat / 10 ^ 6) ∧
    (∀ (c' : Config) (us us' : UInt64), c.masterClockHz ≤ c'.masterClockHz → us ≤ us' →
      c.usToCycles us ≤ c'.usToCycles us') ∧
    (c.Valid ↔
      c.masterClockHz ≠ 0 ∧ c.mainDivider ≠ 0 ∧ c.mcuDivider ≠ 0 ∧ c.decayWindowTicks ≠ 0 ∧
        10 ^ 6 ≤ c.barcodeShiftUs.toNat * c.masterClockHz.toNat ∧
        10 ^ 6 ≤ c.displayTickUs.toNat * c.masterClockHz.toNat) ∧
    ∀ (m : Machine) (log : Log) (a : PlaybackTimer) (as : List UInt8) (b : PlaybackTimer)
      (bs : List UInt8), Agree Strict (· = ·) (AfterStep a as b bs)
        (takeMain ⟨m.withTimer (some a) as, log⟩) (takeMain ⟨m.withTimer (some b) bs, log⟩) := by
  refine ⟨fun us fits => Config.toNat_usToCycles_of_lt fits, fun us => ?_, c.usToCycles_le,
    fun c' us us' clock longer => Config.usToCycles_mono clock longer,
    Config.valid_iff_le_mul_clock, agree_takeMain⟩
  exact ⟨c.period_mul_lt us, c.toNat_usToCycles_period us⟩

/-- A configuration whose clock is so slow that each of its periods is one cycle. -/
def slow : Config := { Config.standard with masterClockHz := 500, displayTickUs := 2000 }

/-- A talker that speaks shortly before times are cut off. -/
def latecomer : Machine := { talker with mainTime := never - 20 }

/-- The most microseconds whose cycles are exact with the usual clock, and the most there are with a
faster one; periods of one cycle; and a late word that takes a microsecond, or as long as can be. -/
theorem latecomer_timed :
    (Config.standard.usToCycles 3689348814741).toNat = 18446744073705 ∧
    Config.standard.usToCycles 3689348814741 ≤
      { Config.standard with masterClockHz := 6000000 }.usToCycles never ∧
    slow.Valid ∧
    ∃ s t, takeMain ⟨latecomer.withTimer (some (.fixed 1)) [], .fresh⟩ = .ok () s ∧
      takeMain ⟨latecomer.withTimer (some (.fixed never)) [], .fresh⟩ = .ok () t ∧
      ⟨never - 7, 2, .speechDone 1⟩ ∈ s.device.timeline.entries ∧
      ⟨never, 2, .speechDone 1⟩ ∈ t.device.timeline.entries ∧
      AfterStep (.fixed 1) [] (.fixed never) [] s t := by
  obtain ⟨fits, -, -, mono, -, step⟩ := cycle_arithmetic_exact .standard
  obtain ⟨-, -, -, -, valid, -⟩ := cycle_arithmetic_exact slow
  have run : ((state? takeMain ⟨latecomer.withTimer (some (.fixed 1)) [], .fresh⟩).any fun s =>
      decide (⟨never - 7, 2, .speechDone 1⟩ ∈ s.device.timeline.entries)) = true := by
    decide +kernel
  have run' : ((state? takeMain ⟨latecomer.withTimer (some (.fixed never)) [], .fresh⟩).any fun t =>
      decide (⟨never, 2, .speechDone 1⟩ ∈ t.device.timeline.entries)) = true := by
    decide +kernel
  obtain ⟨s, hs, soon⟩ := (Option.any_eq_true _ _).1 run
  obtain ⟨t, ht, late⟩ := (Option.any_eq_true _ _).1 run'
  have agree := step latecomer .fresh (.fixed 1) [] (.fixed never) []
  rw [ok_of_state? hs, ok_of_state? ht] at agree
  refine ⟨fits _ (by decide), mono _ _ _ (by decide) (by decide), valid.2 (by decide), s, t,
    ok_of_state? hs, ok_of_state? ht, of_decide_eq_true soon, of_decide_eq_true late, ?_⟩
  cases agree with
  | ok answers states => exact states

end Machine

end CardComputer
