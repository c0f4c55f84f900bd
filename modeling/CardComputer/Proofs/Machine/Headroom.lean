import CardComputer.Proofs.Config.Cycles
import CardComputer.Proofs.Machine.Clock
import CardComputer.Proofs.Machine.Payment
import CardComputer.Proofs.Machine.UnitTimes

/-!
# Headroom

Nothing overflows as long as a host makes fewer than `2 ^ 60` calls and lets no run go past the
horizon, the cycle `2 ^ 60` (`Machine.calls_have_room`). Its calls may come in any order, and it may
load whatever it has saved on the way. What carries this is that the counters and clocks of a
machine are measured by the number of calls (`Machine.Measured`): every number of an event was given
out by a call, or paid for by a clock, and a clock stops at most one period or one step past the
horizon.
-/

namespace CardComputer

/-! ## Bounds on cycles -/

/-- The microseconds of any period, and of any word, take fewer than `2 ^ 45` cycles. -/
theorem Config.usToCycles_lt (c : Config) (us : UInt64) : (c.usToCycles us).toNat < 2 ^ 45 := by
  rw [c.toNat_usToCycles]
  omega

/-- So do the two periods of a configuration. -/
theorem Config.periods_lt (c : Config) :
    c.barcodeShiftCycles.toNat < 2 ^ 45 ∧ c.displayTickCycles.toNat < 2 ^ 45 :=
  ⟨c.usToCycles_lt _, c.usToCycles_lt _⟩

/-- A frame takes a sixtieth of the cycles of a second. -/
theorem Config.toNat_frameCycles (c : Config) :
    c.frameCycles.toNat = c.masterClockHz.toNat / 60 := by
  rw [frameCycles, UInt64.toNat_div, UInt32.toNat_toUInt64]
  rfl

/-- A frame takes fewer than `2 ^ 32` cycles. -/
theorem Config.frameCycles_lt (c : Config) : c.frameCycles.toNat < 2 ^ 32 := by
  have hlt := c.masterClockHz.toNat_lt
  have hdiv := c.toNat_frameCycles
  omega

namespace Timeline

section Beats

variable {event : Event} {period n bound : ℕ} {t : Timeline}

/-- A periodic event that has happened before a bound is pending for at most one period after it. -/
theorem Beats.next_le (h : Beats event period n bound t) : (n + 1) * period ≤ bound + period := by
  rw [Nat.succ_mul]
  rcases h.last with rfl | hlt
  · omega
  · omega

/-- A periodic event does not happen more often than there are cycles. -/
theorem Beats.count_le (h : Beats event period n bound t) (pos : 0 < period) : n ≤ bound := by
  have hle : n ≤ n * period := Nat.le_mul_of_pos_right n pos
  rcases h.last with rfl | hlt
  · omega
  · omega

/-- Its one entry is all that it adds to the times. -/
theorem Beats.pendingTime_le (h : Beats event period n bound t) :
    t.pendingTime (· = event) ≤ bound + period := by
  obtain ⟨e, he, htime⟩ := h.entry
  have hle := h.next_le
  rw [pendingTime, he]
  simp only [List.map_cons, List.map_nil, List.foldr_cons, List.foldr_nil]
  omega

end Beats

end Timeline

namespace Machine

open Op

/-! ## Measured machines -/

/-- The last time to which a host runs a machine. -/
def horizon : UInt64 := 0x1000000000000000

theorem toNat_horizon : horizon.toNat = 2 ^ 60 := rfl

/-- The counters and clocks of a machine are measured by a number of calls. -/
structure Measured (c : Config) (calls : ℕ) (m : Machine) : Prop where
  history : ∃ past, History past m
  config : m.config = c
  paced : m.Paced
  /-- The periodic events keep time up to the horizon. -/
  ticking : m.Ticking horizon
  /-- A number was given out by a call, or a clock paid for it. -/
  numbers : m.timeline.nextSeq.toNat ≤ calls + m.clockSum
  now : m.now ≤ horizon
  /-- The main unit goes at most a step past the horizon. -/
  main : m.mainTime.toNat ≤ 2 ^ 60 + 2 ^ 34
  /-- So does the coprocessor. -/
  mcu : m.mcuTime.toNat ≤ 2 ^ 60 + 2 ^ 34
  /-- Every stall took a step of the main unit. -/
  generation : m.board.stall.generation.toNat ≤ m.mainTime.toNat
  gated : m.board.stall.gatedCycles.toNat ≤ m.mainTime.toNat

section Measured

variable {c : Config} {calls : ℕ} {m m' : Machine}

theorem Measured.mono {calls' : ℕ} (h : Measured c calls m) (hle : calls ≤ calls') :
    Measured c calls' m :=
  { h with numbers := Nat.le_trans h.numbers (Nat.add_le_add_right hle _) }

/-- A machine that was just switched on. -/
theorem measured_powerOn (calls : ℕ) {past : List Machine} (history : History past m)
    (paced : m.Paced) (timeline : m.timeline = powerOnTimeline m.config)
    (uncounted : m.board.display.now = 0) (now : m.now = 0) (main : m.mainTime = 0)
    (mcu : m.mcuTime = 0) (stall : m.board.stall = .fresh) : Measured m.config calls m := by
  obtain ⟨hshift, htick⟩ := ofKind_powerOnTimeline m.config
  obtain ⟨hshiftPos, htickPos⟩ := m.periods_pos
  refine {
    history := ⟨past, history⟩
    config := rfl
    paced
    ticking := ticking_powerOn timeline uncounted horizon
    numbers := ?_
    now := ?_
    main := ?_
    mcu := ?_
    generation := ?_
    gated := ?_ }
  -- Two numbers were given out, and both periods are at least one cycle.
  · have hnext : m.timeline.nextSeq.toNat = 2 := by
      rw [timeline]
      rfl
    have hsum : m.clockSum = m.config.barcodeShiftCycles.toNat +
        m.config.displayTickCycles.toNat := by
      simp [clockSum, Timeline.pendingTime, timeline, hshift, htick, main]
    omega
  -- All other counters and clocks are zero.
  · rw [now]
    exact UInt64.zero_le
  · rw [main]
    exact Nat.zero_le _
  · rw [mcu]
    exact Nat.zero_le _
  · rw [stall, main]
    exact Nat.le_refl _
  · rw [stall, main]
    exact Nat.le_refl _

/-- Four cycles of a processor take fewer than `2 ^ 34` master cycles. -/
theorem masterCycles_four_lt (divider : UInt32) : (masterCycles 4 divider).toNat < 2 ^ 34 := by
  have hlt := divider.toNat_lt
  have hfour : (4 : UInt32).toNat = 4 := rfl
  rw [masterCycles_toNat, hfour]
  omega

/-- The clocks of a measured machine have not gone far. -/
theorem Measured.clockSum_le (h : Measured c calls m) :
    m.clockSum ≤ 3 * 2 ^ 60 + 2 * 2 ^ 45 + 2 ^ 34 := by
  obtain ⟨n, hshift⟩ := h.ticking.shift
  have hshifts := hshift.pendingTime_le
  have hticks := h.ticking.tick.pendingTime_le
  have hmain := h.main
  obtain ⟨hshiftPeriod, htickPeriod⟩ := m.config.periods_lt
  rw [toNat_horizon] at hshifts hticks
  unfold clockSum
  omega

/-- A measured machine has room for a turn. -/
theorem Measured.hasRoom (h : Measured c calls m) (few : calls < 2 ^ 60) : m.HasRoom := by
  have hsize : UInt64.size = 2 ^ 64 := rfl
  have hfour : (4 : UInt32).toNat = 4 := rfl
  obtain ⟨past, hpast⟩ := h.history
  obtain ⟨hshiftPeriod, htickPeriod⟩ := m.config.periods_lt
  have hmain := h.main
  have hgeneration := h.generation
  refine {
    numbers := ?_
    shift := fun e he kind => ?_
    tick := fun e he kind => ?_
    ticks := ?_
    scanner := hpast.regular.scanner
    generation := ?_
    stalls := fun hs => ?_
    gated := ?_
    main := ?_
    mcu := ?_ }
  · have hnumbers := h.numbers
    have hsum := h.clockSum_le
    omega
  -- The only entry of a periodic event is at its next time.
  · obtain ⟨n, hshift⟩ := h.ticking.shift
    have hnext := hshift.next_le
    rw [toNat_horizon] at hnext
    rw [hshift.time_eq he kind]
    omega
  · have hnext := h.ticking.tick.next_le
    rw [toNat_horizon] at hnext
    rw [h.ticking.tick.time_eq he kind]
    omega
  -- The display counts its own ticks.
  · have hcount := h.ticking.tick.count_le m.periods_pos.2
    rw [toNat_horizon] at hcount
    omega
  · omega
  -- All stalls but the current one were counted.
  · have hstalls := hpast.stallSound.generation
    rw [if_pos hs] at hstalls
    omega
  · have hgated := h.gated
    rw [h.paced.main.nextCycles_eq]
    omega
  · have hstep := masterCycles_four_lt m.config.mainDivider
    rw [h.paced.main.nextCycles_eq]
    omega
  · have hmcu := h.mcu
    have hstep := masterCycles_four_lt m.config.mcuDivider
    rw [h.paced.mcu.nextCycles_eq]
    omega

/-! ## Turns and runs -/

/-- A turn before the horizon brings the main unit at most a step past it. -/
theorem Effect.mainTime_le {target : UInt64} {turn : Turn} (he : Effect m turn m')
    (ht : m.turn? target = some turn) (hle : target ≤ horizon) (paced : m.Paced)
    (hmain : m.mainTime.toNat ≤ 2 ^ 60 + 2 ^ 34) : m'.mainTime.toNat ≤ 2 ^ 60 + 2 ^ 34 := by
  have hhorizon : target.toNat ≤ 2 ^ 60 := UInt64.le_iff_toNat_le.1 hle
  have hdue := UInt64.lt_iff_toNat_lt.1 (due_of_turn? ht).target
  cases he with
  | release next kind stalled counted =>
    rw [turnTime_event next] at hdue
    rw [toNat_max]
    omega
  | main step counted later times =>
    have hstep := masterCycles_four_lt m.config.mainDivider
    rw [step.cycles_eq, paced.main.nextCycles_eq] at later
    have hdue : m.mainTime.toNat < target.toNat := hdue
    dsimp only
    omega
  | _ => exact hmain

/-- A turn before the horizon brings the coprocessor at most a step past it. -/
theorem Effect.mcuTime_le {target : UInt64} {turn : Turn} (he : Effect m turn m')
    (ht : m.turn? target = some turn) (hle : target ≤ horizon) (paced : m.Paced)
    (hmcu : m.mcuTime.toNat ≤ 2 ^ 60 + 2 ^ 34) : m'.mcuTime.toNat ≤ 2 ^ 60 + 2 ^ 34 := by
  have hhorizon : target.toNat ≤ 2 ^ 60 := UInt64.le_iff_toNat_le.1 hle
  have hdue := UInt64.lt_iff_toNat_lt.1 (due_of_turn? ht).target
  cases he with
  | mcu step later =>
    have hstep := masterCycles_four_lt m.config.mcuDivider
    rw [step.cycles_eq, paced.mcu.nextCycles_eq] at later
    have hdue : m.mcuTime.toNat < target.toNat := hdue
    dsimp only
    omega
  | _ => exact hmcu

/-- A turn before the horizon leaves a machine measured. -/
theorem Measured.turn {target : UInt64} {turn : Turn} {log log' : Log} (h : Measured c calls m)
    (hle : target ≤ horizon) (ht : m.turn? target = some turn)
    (hs : take turn ⟨m, log⟩ = .ok () ⟨m', log'⟩) : Measured c calls m' := by
  have effect : Effect m turn m' := effect_of_take (s := ⟨m, log⟩) ht hs
  obtain ⟨past, hpast⟩ := h.history
  refine {
    history := ⟨_, hpast.move (.turn ht hs)⟩
    config := effect.config_eq.trans h.config
    paced := h.paced.effect effect
    ticking := h.ticking.effect (turn?_mono hle ht) effect
    numbers := ?_
    now := ?_
    main := effect.mainTime_le ht hle h.paced h.main
    mcu := effect.mcuTime_le ht hle h.paced h.mcu
    generation := ?_
    gated := ?_ }
  -- What the turn has given out is paid for by the clocks on the other side.
  · have paid := effect.paid.numbers
    have hnumbers := h.numbers
    omega
  · rw [effect.timing.now]
    exact UInt64.le_trans (UInt64.le_of_lt (due_of_turn? ht).target) hle
  · have paid := effect.paid.generation
    have hgeneration := h.generation
    omega
  · have paid := effect.paid.gated
    have hgated := h.gated
    omega

/-- A run to the horizon or less takes its turns and leaves a machine measured. -/
theorem Measured.exists_turns {target : UInt64} {s : Observed Machine}
    (h : Measured c calls s.device) (few : calls < 2 ^ 60) (hle : target ≤ horizon) :
    ∃ t, turns target s = .ok () t ∧ Measured c calls t.device ∧
      t.device.turn? target = none := by
  induction s using turns_induct target with
  | stop s ht => exact ⟨s, turns_of_none ht, h, ht⟩
  | go s turn ht ih =>
    obtain ⟨_, t, hs⟩ := (h.hasRoom few).succeeds_take turn s.log
    rw [turns_of_some ht, bind_of_ok hs]
    exact ih t hs (h.turn hle ht hs)

/-- An arrival at the horizon or before leaves a machine measured. -/
theorem Measured.arrive {target : UInt64} (h : Measured c calls m) (hle : target ≤ horizon)
    (ht : m.turn? target = none) : Measured c calls (arrive target m) := by
  have hhorizon : target.toNat ≤ 2 ^ 60 := UInt64.le_iff_toNat_le.1 hle
  obtain ⟨past, hpast⟩ := h.history
  -- A stalled main unit is moved on, and nothing is given out for it.
  obtain ⟨hlower, hupper⟩ : m.mainTime.toNat ≤ (Machine.arrive target m).mainTime.toNat ∧
      (Machine.arrive target m).mainTime.toNat ≤ 2 ^ 60 + 2 ^ 34 := by
    have hmain := h.main
    unfold Machine.arrive
    dsimp only
    split
    · rw [toNat_max]
      omega
    · omega
  have hsum : m.clockSum ≤ (Machine.arrive target m).clockSum :=
    Nat.add_le_add_left hlower _
  exact { h with
    history := ⟨_, hpast.move (.arrive ht rfl)⟩
    paced := ⟨h.paced.main, h.paced.mcu⟩
    ticking := ⟨h.ticking.shift, h.ticking.tick⟩
    numbers := Nat.le_trans h.numbers (Nat.add_le_add_left hsum calls)
    now := hle
    main := hupper
    generation := Nat.le_trans h.generation hlower
    gated := Nat.le_trans h.gated hlower }

/-- A run to the horizon or less succeeds and leaves a machine measured. -/
theorem Measured.exists_runUntil {target : UInt64} {s : Observed Machine}
    (h : Measured c calls s.device) (few : calls < 2 ^ 60) (hle : target ≤ horizon) :
    ∃ t, runUntil target s = .ok () t ∧ Measured c calls t.device := by
  obtain ⟨t, ht, measured, hnone⟩ := h.exists_turns few hle
  exact ⟨_, runUntil_eq_ok.2 ⟨t, ht, rfl⟩, measured.arrive hle hnone⟩

/-! ## Calls -/

/-- A request succeeds if there is a number for one more event. -/
theorem HasRoom.succeeds_request (room : m.HasRoom) (r : Request) (log : Log) :
    Succeeds r.perform ⟨m, log⟩ := by
  cases r with
  | install timer => exact succeeds_update _ _
  | swipe code => exact succeeds_device_bind (succeeds_schedule room.numbers _ _)
  | setKey key pressed => exact succeeds_device_bind (succeeds_schedule room.numbers _ _)
  | speechDone => exact succeeds_device_bind (succeeds_schedule room.numbers _ _)
  | pressReset => exact succeeds_say_bind fun log => succeeds_update _ _

/-- A request is one more call that a machine is measured by. -/
theorem Measured.request {r : Request} {log log' : Log} (h : Measured c calls m)
    (hr : r.perform ⟨m, log⟩ = .ok () ⟨m', log'⟩) : Measured c (calls + 1) m' := by
  obtain ⟨past, hpast⟩ := h.history
  have history : ∃ past', History past' m' := ⟨_, hpast.move (.request hr)⟩
  have fulfilled : Fulfilled m r m' := fulfilled_of_perform hr
  have ticking := h.ticking.fulfilled fulfilled
  have more := h.mono (Nat.le_succ calls)
  cases fulfilled with
  | install timer => exact { more with history, ticking, paced := ⟨h.paced.main, h.paced.mcu⟩ }
  | pressReset => exact { more with history, ticking, paced := ⟨h.paced.main, h.paced.mcu⟩ }
  | @posted _ event timeline posts scheduled =>
    refine { more with history, ticking, paced := ⟨h.paced.main, h.paced.mcu⟩, numbers := ?_ }
    -- The event takes a number, and is none that a clock would have to pay for.
    obtain ⟨hshift, htick⟩ := Request.event?_ne posts
    have hnumbers := h.numbers
    have number := (Timeline.schedule_eq_ok.1 scheduled).2
    have shifts : timeline.pendingTime (· = .barcodeShift) =
        m.timeline.pendingTime (· = .barcodeShift) :=
      Timeline.pendingTime_schedule_of_ne scheduled (decide_eq_false hshift)
    have ticks : timeline.pendingTime (· = .displayTick) =
        m.timeline.pendingTime (· = .displayTick) :=
      Timeline.pendingTime_schedule_of_ne scheduled (decide_eq_false htick)
    unfold clockSum at hnumbers ⊢
    simp only [shifts, ticks]
    omega

/-- A machine that is switched off and on again. -/
theorem Measured.reset (h : Measured c calls m) : Measured c (calls + 1) m.reset := by
  obtain ⟨past, hpast⟩ := h.history
  have config : m.reset.config = c := h.config
  rw [← config]
  exact measured_powerOn _ hpast.reset ⟨h.paced.main, h.paced.mcu⟩ rfl rfl rfl rfl rfl rfl

/-- A machine that loads what was saved is measured like the one that has saved it. -/
theorem Measured.load {saved : Machine} {log log' : Log} (h : Measured c calls m)
    (hsaved : Measured c calls saved)
    (hl : load saved.save ⟨m, log⟩ = .ok (.ok ()) ⟨m', log'⟩) : Measured c calls m' := by
  obtain ⟨past, hpast⟩ := h.history
  obtain ⟨past', hpast'⟩ := hsaved.history
  have history : ∃ past', History past' m' := ⟨past', .load hpast hpast' hl⟩
  have ticking := hsaved.ticking.of_load hpast'.regular (hsaved.config.trans h.config.symm) hl
  obtain ⟨-, timeline, hentries, hseq, -, rfl⟩ := hpast'.regular.of_load hl
  -- The processors and the configuration stay, and all the rest comes from the saved machine.
  refine { hsaved with
    history, ticking, numbers := ?_, config := h.config, paced := ⟨h.paced.main, h.paced.mcu⟩ }
  have hle : timeline.nextSeq.toNat ≤ saved.timeline.nextSeq.toNat := UInt64.le_iff_toNat_le.1 hseq
  have sums (kind : Event → Bool) : timeline.pendingTime kind = saved.timeline.pendingTime kind :=
    Timeline.pendingTime_congr (Timeline.ofKind_congr hentries)
  show timeline.nextSeq.toNat ≤ calls +
    (timeline.pendingTime _ + timeline.pendingTime _ + saved.mainTime.toNat)
  rw [sums, sums]
  exact Nat.le_trans hle hsaved.numbers

/-- A frame that ends at the horizon or before succeeds and leaves a machine measured. -/
theorem Measured.exists_stepFrame {s : Observed Machine} (h : Measured c calls s.device)
    (few : calls < 2 ^ 60)
    (near : ∀ target, Call.stepFrame.target? s.device = some target → target ≤ horizon) :
    ∃ frame t, stepFrame s = .ok frame t ∧ Measured c calls t.device := by
  -- The clock is at the horizon at most, so the end of the frame is a time.
  have fits : s.device.now.toNat + s.device.config.frameCycles.toNat < UInt64.size := by
    have hnow : s.device.now.toNat ≤ 2 ^ 60 := UInt64.le_iff_toNat_le.1 h.now
    have hframe := s.device.config.frameCycles_lt
    have hsize : UInt64.size = 2 ^ 64 := rfl
    omega
  obtain ⟨target, hadd⟩ := exists_checkedAdd fits
  have hle : target ≤ horizon := by
    apply near
    rw [Call.target?, hadd]
    rfl
  obtain ⟨t, ht, measured⟩ := h.exists_runUntil few hle
  refine ⟨t.device.frame, t, ?_, measured⟩
  rw [stepFrame_eq (checkedAdd_eq_ok_iff.1 hadd), bind_of_ok ht]
  rfl

/-- Loading what a machine of the same configuration has saved succeeds and leaves a machine
measured. -/
theorem Measured.exists_load {s : Observed Machine} {saved : Machine}
    (h : Measured c calls s.device) (hsaved : Measured c calls saved) :
    ∃ t, Machine.load saved.save s = .ok (.ok ()) t ∧ Measured c calls t.device := by
  obtain ⟨past, hpast⟩ := hsaved.history
  have config : saved.config = s.device.config := hsaved.config.trans h.config.symm
  have can : s.device.CanLoad saved :=
    ⟨congrArg Config.model config, congrArg Config.decayWindowTicks config⟩
  obtain ⟨timeline, -, -, -, hload⟩ := hpast.regular.load_save
  have hok := hload s.device s.log can
  exact ⟨_, hok, h.load hsaved hok⟩

/-- A call succeeds, and is one more that the machine is measured by, if it runs to the horizon at
most and loads what is measured. -/
theorem Measured.exists_perform {call : Call} {s : Observed Machine} (h : Measured c calls s.device)
    (few : calls < 2 ^ 60) (near : ∀ target, call.target? s.device = some target → target ≤ horizon)
    (origin : ∀ saved, call = .load saved → Measured c calls saved) :
    ∃ answer t, call.perform s = .ok answer t ∧ Measured c (calls + 1) t.device := by
  cases call with
  | request r =>
    obtain ⟨_, t, ht⟩ := (h.hasRoom few).succeeds_request r s.log
    exact ⟨_, t, bind_of_ok ht, h.request ht⟩
  | reset => exact ⟨_, _, rfl, h.reset⟩
  | runUntil target =>
    obtain ⟨t, ht, measured⟩ := h.exists_runUntil few (near target rfl)
    exact ⟨_, t, bind_of_ok ht, measured.mono (Nat.le_succ calls)⟩
  | stepFrame =>
    obtain ⟨frame, t, ht, measured⟩ := h.exists_stepFrame few near
    exact ⟨_, t, bind_of_ok ht, measured.mono (Nat.le_succ calls)⟩
  | load saved =>
    obtain ⟨t, ht, measured⟩ := h.exists_load (origin saved rfl)
    exact ⟨_, t, bind_of_ok ht, measured.mono (Nat.le_succ calls)⟩

end Measured

/-! ## Calls in a row -/

/-- Calls that a host makes one after the other, of which none runs past the horizon, and each loads
only what the host may have saved: the present state or one before an earlier call. -/
def Foreseen : List Call → List Machine → Observed Machine → Prop
  | [], _, _ => True
  | call :: calls, earlier, s =>
    (∀ target, call.target? s.device = some target → target ≤ horizon) ∧
    (∀ saved, call = .load saved → saved ∈ s.device :: earlier) ∧
    ∀ answer t, call.perform s = .ok answer t → Foreseen calls (s.device :: earlier) t

/-- Foreseen calls succeed on a measured machine and leave it measured, if they are few together
with those before. -/
theorem Measured.exists_performAll {c : Config} {n : ℕ} {earlier : List Machine}
    {calls : List Call} {s : Observed Machine} (h : Measured c n s.device)
    (hearlier : ∀ saved ∈ earlier, Measured c n saved) (few : n + calls.length ≤ 2 ^ 60)
    (foreseen : Foreseen calls earlier s) :
    ∃ answers t, performAll calls s = .ok answers t ∧ Measured c (n + calls.length) t.device := by
  -- Every call adds to the number of calls and to the states that can be loaded.
  induction calls generalizing n earlier s with
  | nil => exact ⟨[], s, rfl, h⟩
  | cons call calls ih =>
    obtain ⟨near, origin, rest⟩ := foreseen
    rw [List.length_cons] at few ⊢
    have hstates : ∀ saved ∈ s.device :: earlier, Measured c n saved :=
      List.forall_mem_cons.2 ⟨h, hearlier⟩
    obtain ⟨answer, t, ht, measured⟩ := h.exists_perform (by omega) near
      fun saved hload => hstates saved (origin saved hload)
    obtain ⟨answers, u, hu, last⟩ := ih measured
      (fun saved hmem => (hstates saved hmem).mono (Nat.le_succ n)) (by omega)
      (rest answer t ht)
    exact ⟨answer :: answers, u, bind_eq_ok.2 ⟨answer, t, ht, bind_of_ok hu⟩,
      last.mono (by omega)⟩

/-- Foreseen calls succeed on a measured machine, if they are few together with those before. -/
theorem Measured.succeeds_performAll {c : Config} {n : ℕ} {earlier : List Machine}
    {calls : List Call} {s : Observed Machine} (h : Measured c n s.device)
    (hearlier : ∀ saved ∈ earlier, Measured c n saved) (few : n + calls.length ≤ 2 ^ 60)
    (foreseen : Foreseen calls earlier s) : Succeeds (performAll calls) s := by
  obtain ⟨answers, t, ht, -⟩ := h.exists_performAll hearlier few foreseen
  exact ⟨answers, t, ht⟩

/-- Every counter and clock has room for what a host calls for. Fewer than `2 ^ 60` calls, in any
order, that run to the horizon at most and load only what was saved on the way, all succeed on a
machine whose processors take four cycles for each step, whatever its configuration, its timer and
its log. -/
theorem calls_have_room (config : Config) (valid : config.Valid) {main mcu : Processor}
    (hmain : main.Paced) (hmcu : mcu.Paced) (timer : Option PlaybackTimer) (log : Log)
    {calls : List Call} (few : calls.length < 2 ^ 60)
    (foreseen : Foreseen calls [] ⟨build config valid main mcu timer, log⟩) :
    ∃ answers s', performAll calls ⟨build config valid main mcu timer, log⟩ = .ok answers s' := by
  have measured : Measured config 0 (build config valid main mcu timer) :=
    measured_powerOn 0 (.build config valid main mcu timer) ⟨hmain, hmcu⟩ rfl rfl rfl rfl rfl rfl
  refine measured.succeeds_performAll (s := ⟨build config valid main mcu timer, log⟩)
    (fun saved hmem => absurd hmem List.not_mem_nil) ?_ foreseen
  omega

/-- What a host may do with a talker: a frame, words that never end, a run to the horizon, a return
to the state at power-on, a reset. -/
def outing : List Call :=
  [.stepFrame, .request (.install (.fixed 0xFFFFFFFFFFFFFFFF)), .request (.swipe (.truncate 5)),
    .runUntil horizon, .load talker, .request .speechDone, .reset, .runUntil 1000]

/-- A talker has room for an outing. -/
theorem talker_has_room : Foreseen outing [] ⟨talker, .fresh⟩ ∧
    ∃ answers s', performAll outing ⟨talker, .fresh⟩ = .ok answers s' := by
  have hmain : talker.main.Paced := by simp [Processor.Paced, talker, build, Processor.ofScript]
  have hmcu : talker.mcu.Paced := by simp [Processor.Paced, talker, build, Processor.ofScript]
  have first : ∀ target, Call.stepFrame.target? talker = some target → target ≤ horizon := by
    intro target h
    obtain rfl : talker.config.frameCycles = target := Option.some.inj h
    decide
  have last : (1000 : UInt64) ≤ horizon := by decide
  have foreseen : Foreseen outing [] ⟨talker, .fresh⟩ := by
    simpa [outing, Foreseen, Call.target?, last] using first
  exact ⟨foreseen, calls_have_room _ _ hmain hmcu _ _ (by decide) foreseen⟩

end Machine

end CardComputer
