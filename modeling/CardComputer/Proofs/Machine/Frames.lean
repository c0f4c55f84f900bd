import CardComputer.Proofs.Machine.Ending
import CardComputer.Proofs.Machine.Headroom

/-!
# Frames

A host shows a machine frame by frame, so its clock has to go on with every frame. A frame takes a
sixtieth of a second in cycles, rounded down (`Machine.now_of_stepFrame`), and a valid configuration
may have a clock of fewer than 60 cycles per second: the other two periods that are worked out from
the clock must not be zero, but this one may. Frames bring a machine forward exactly if its clock
has at least 60 cycles per second, and then they bring it to any time
(`Machine.frames_advance_iff`); a slower machine stands still for ever
(`Machine.idler_stands_still`).
-/

namespace CardComputer

/-- A frame takes at least a cycle if a second has sixty. -/
theorem Config.frameCycles_pos_iff {c : Config} :
    0 < c.frameCycles.toNat ↔ 60 ≤ c.masterClockHz := by
  have sixty : (60 : UInt32).toNat = 60 := rfl
  rw [c.toNat_frameCycles, UInt32.le_iff_toNat_le, sixty]
  omega

namespace Machine

open Op

/-- Frames bring a machine to a time or past it. -/
def Reaches (s : Observed Machine) (time : UInt64) : Prop :=
  ∃ n frames t, stepFrames n s = .ok frames t ∧ time ≤ t.device.now

section Frames

variable {s t : Observed Machine} {n : ℕ}

/-! ## The clock after frames -/

/-- A frame takes as many cycles as the configuration says, which stays. -/
theorem now_of_stepFrame {frame : Frame} (h : stepFrame s = .ok frame t) :
    t.device.now.toNat = s.device.now.toNat + s.device.config.frameCycles.toNat ∧
      t.device.config = s.device.config := by
  obtain ⟨target, htarget, hrun, -⟩ := runUntil_of_stepFrame h
  obtain ⟨hnow, hconfig⟩ := now_config_of_runUntil hrun
  exact ⟨hnow ▸ htarget, hconfig⟩

/-- So do several frames. -/
theorem now_of_stepFrames {frames : List Frame} (h : stepFrames n s = .ok frames t) :
    t.device.now.toNat = s.device.now.toNat + n * s.device.config.frameCycles.toNat := by
  induction n generalizing s frames with
  | zero =>
    obtain ⟨-, rfl⟩ := pure_eq_ok.1 h
    rw [Nat.zero_mul, Nat.add_zero]
  | succ n ih =>
    obtain ⟨frame, u, hu, h⟩ := bind_eq_ok.1 h
    obtain ⟨others, v, hv, h⟩ := bind_eq_ok.1 h
    obtain ⟨-, rfl⟩ := pure_eq_ok.1 h
    obtain ⟨hnow, hconfig⟩ := now_of_stepFrame hu
    -- The other frames are as long, since the configuration stays.
    have hlater := ih hv
    rw [hconfig] at hlater
    rw [Nat.succ_mul]
    omega

/-- A frame brings a machine forward exactly if a second has sixty cycles. -/
theorem lt_of_stepFrame_iff {frame : Frame} (h : stepFrame s = .ok frame t) :
    s.device.now < t.device.now ↔ 60 ≤ s.device.config.masterClockHz := by
  -- The clock has gone on by a frame, so the question is whether a frame has a cycle.
  rw [← Config.frameCycles_pos_iff, UInt64.lt_iff_toNat_lt, (now_of_stepFrame h).1]
  omega

/-! ## Faults -/

/-- A run has no faults but those of arithmetic. -/
theorem raises_runUntil (target : UInt64) : Raises Fault.IsArithmetic (runUntil target) := by
  intro s fault u h
  obtain ⟨n, t, -, -, -, ending⟩ := run_ends target s
  cases ending with
  | arrived idle result =>
    rw [result] at h
    cases h
  | failed next failure arithmetic result =>
    rw [result] at h
    cases h
    exact arithmetic

/-- Nor has a frame. -/
theorem raises_stepFrame : Raises Fault.IsArithmetic stepFrame := by
  refine raises_bind raises_device fun m => raises_bind ?_ fun _ => ?_
  · refine raises_bind raises_device fun m => ?_
    exact raises_bind (raises_check fun fault h => isArithmetic_of_checkedAdd h) raises_runUntil
  · exact raises_bind raises_device fun m => raises_pure _

/-- Nor have several frames. -/
theorem raises_stepFrames (n : ℕ) : Raises Fault.IsArithmetic (stepFrames n) := by
  induction n with
  | zero => exact raises_pure _
  | succ n ih =>
    exact raises_bind raises_stepFrame fun frame => raises_bind ih fun frames => raises_pure _

/-- Whatever state a machine is in, frames that take time bring it to any time, unless a sum does
not fit on the way. -/
theorem reaches_or_fails (s : Observed Machine) (time : UInt64)
    (takes : 0 < s.device.config.frameCycles.toNat) :
    Reaches s time ∨ ∃ n fault t, stepFrames n s = .error fault t ∧ fault.IsArithmetic := by
  cases h : stepFrames time.toNat s with
  | ok frames t =>
    left
    refine ⟨_, frames, t, h, UInt64.le_iff_toNat_le.2 ?_⟩
    -- Every frame takes a cycle at least, so there are as many frames as are needed.
    have hle : time.toNat ≤ time.toNat * s.device.config.frameCycles.toNat :=
      Nat.le_mul_of_pos_right _ takes
    have hnow := now_of_stepFrames h
    omega
  | error fault t => exact .inr ⟨_, fault, t, h, raises_stepFrames _ s fault t h⟩

/-- Frames that take no time bring a machine nowhere. -/
theorem not_reaches {time : UInt64} (stands : s.device.config.frameCycles.toNat = 0)
    (later : s.device.now < time) : ¬ Reaches s time := by
  rintro ⟨n, frames, t, h, hle⟩
  have hnow := now_of_stepFrames h
  rw [stands, Nat.mul_zero] at hnow
  rw [UInt64.le_iff_toNat_le] at hle
  rw [UInt64.lt_iff_toNat_lt] at later
  omega

/-! ## Frames before the horizon -/

section Measured

variable {c : Config} {calls : ℕ}

/-- A frame succeeds if it ends at the horizon or before. -/
theorem Measured.exists_frame (h : Measured c calls s.device) (few : calls < 2 ^ 60)
    (near : s.device.now.toNat + c.frameCycles.toNat ≤ 2 ^ 60) :
    ∃ frame t, stepFrame s = .ok frame t ∧ Measured c calls t.device := by
  refine h.exists_stepFrame few fun target htarget => ?_
  rw [Call.target?, h.config] at htarget
  cases hadd : checkedAdd s.device.now c.frameCycles with
  | error fault =>
    rw [hadd] at htarget
    cases htarget
  | ok next =>
    rw [hadd] at htarget
    obtain rfl := Option.some.inj htarget
    rw [UInt64.le_iff_toNat_le, checkedAdd_eq_ok_iff.1 hadd, toNat_horizon]
    exact near

/-- So do several frames. -/
theorem Measured.exists_stepFrames (h : Measured c calls s.device) (few : calls < 2 ^ 60)
    (near : s.device.now.toNat + n * c.frameCycles.toNat ≤ 2 ^ 60) :
    ∃ frames t, stepFrames n s = .ok frames t := by
  induction n generalizing s with
  | zero => exact ⟨[], s, rfl⟩
  | succ n ih =>
    rw [Nat.succ_mul] at near
    obtain ⟨frame, t, ht, measured⟩ := h.exists_frame few (by omega)
    have hnow := (now_of_stepFrame ht).1
    rw [h.config] at hnow
    obtain ⟨frames, u, hu⟩ := ih measured (by omega)
    exact ⟨frame :: frames, u, bind_eq_ok.2 ⟨frame, t, ht, bind_of_ok hu⟩⟩

/-- Frames that take time bring a machine to any time that is far from the horizon. -/
theorem Measured.reaches (h : Measured c calls s.device) (few : calls < 2 ^ 60)
    (takes : 0 < c.frameCycles.toNat) (near : s.device.now.toNat < 2 ^ 59) {time : UInt64}
    (far : time.toNat ≤ 2 ^ 59) : Reaches s time := by
  -- So many frames as go into the time that is left, and one more.
  let n := (time.toNat - s.device.now.toNat) / c.frameCycles.toNat + 1
  have covers : time.toNat - s.device.now.toNat < n * c.frameCycles.toNat := by
    rw [Nat.mul_comm]
    exact Nat.lt_mul_div_succ _ takes
  have fits : n * c.frameCycles.toNat ≤
      time.toNat - s.device.now.toNat + c.frameCycles.toNat := by
    rw [Nat.succ_mul]
    exact Nat.add_le_add_right (Nat.div_mul_le_self _ _) _
  have hframe := c.frameCycles_lt
  obtain ⟨frames, t, ht⟩ := h.exists_stepFrames (n := n) few (by omega)
  refine ⟨n, frames, t, ht, UInt64.le_iff_toNat_le.2 ?_⟩
  have hnow := now_of_stepFrames ht
  rw [h.config] at hnow
  omega

/-- Frames bring a machine to all times that are far from the horizon exactly if a second has sixty
cycles. -/
theorem Measured.reaches_iff (h : Measured c calls s.device) (few : calls < 2 ^ 60)
    (near : s.device.now.toNat < 2 ^ 59) :
    (∀ time : UInt64, time.toNat ≤ 2 ^ 59 → Reaches s time) ↔ 60 ≤ c.masterClockHz := by
  rw [← Config.frameCycles_pos_iff]
  constructor
  · intro all
    by_contra stands
    -- The clock does not even come to the next cycle.
    have next : (UInt64.ofNat (s.device.now.toNat + 1)).toNat = s.device.now.toNat + 1 :=
      UInt64.toNat_ofNat_of_lt (by unfold UInt64.size; omega)
    refine not_reaches (s := s) ?_ ?_ (all (.ofNat (s.device.now.toNat + 1)) (by omega))
    · rw [h.config]
      omega
    · rw [UInt64.lt_iff_toNat_lt]
      omega
  · intro takes time far
    exact h.reaches few takes near far

end Measured

end Frames

/-! ## Progress -/

/-- A machine makes progress, frame by frame, exactly if its clock has at least sixty cycles per
second, which its configuration need not have to be valid.

Whatever state a machine is in, a frame that succeeds brings it forward exactly then, and frames
bring it to any time then; they fail for no reason but that a sum does not fit. After calls of a
host that leave the clock far from the horizon frames do succeed, and bring the machine to all times
that are far from the horizon exactly if a second has sixty cycles. -/
theorem frames_advance_iff (config : Config) (valid : config.Valid) :
    (∀ s : Observed Machine, s.device.config = config →
      (∀ frame t, stepFrame s = .ok frame t →
        (s.device.now < t.device.now ↔ 60 ≤ config.masterClockHz)) ∧
      (∀ fault t, stepFrame s = .error fault t → fault.IsArithmetic) ∧
      (60 ≤ config.masterClockHz → ∀ time, Reaches s time ∨
        ∃ n fault t, stepFrames n s = .error fault t ∧ fault.IsArithmetic)) ∧
    ∀ (main mcu : Processor), main.Paced → mcu.Paced →
      ∀ (timer : Option PlaybackTimer) (log : Log) (calls : List Call), calls.length < 2 ^ 60 →
      Foreseen calls [] ⟨build config valid main mcu timer, log⟩ →
      ∃ answers s, performAll calls ⟨build config valid main mcu timer, log⟩ = .ok answers s ∧
        (s.device.now.toNat < 2 ^ 59 →
          (∃ frame t, stepFrame s = .ok frame t ∧
            (s.device.now < t.device.now ↔ 60 ≤ config.masterClockHz)) ∧
          ((∀ time : UInt64, time.toNat ≤ 2 ^ 59 → Reaches s time) ↔
            60 ≤ config.masterClockHz)) := by
  refine ⟨fun s hconfig => ⟨fun frame t ht => ?_, fun fault t ht => ?_, fun takes time => ?_⟩,
    fun main mcu hmain hmcu timer log calls few foreseen => ?_⟩
  · exact hconfig ▸ lt_of_stepFrame_iff ht
  · exact raises_stepFrame s fault t ht
  · exact reaches_or_fails s time (Config.frameCycles_pos_iff.2 (hconfig ▸ takes))
  · have powerOn : Measured config 0 (build config valid main mcu timer) :=
      measured_powerOn 0 (.build config valid main mcu timer) ⟨hmain, hmcu⟩ rfl rfl rfl rfl rfl rfl
    obtain ⟨answers, s, hs, measured⟩ := powerOn.exists_performAll
      (s := ⟨build config valid main mcu timer, log⟩)
      (fun saved hmem => absurd hmem List.not_mem_nil) (by omega) foreseen
    refine ⟨answers, s, hs, fun near => ⟨?_, measured.reaches_iff (by omega) near⟩⟩
    have hframe := config.frameCycles_lt
    obtain ⟨frame, t, ht, -⟩ := measured.exists_frame (by omega) (by omega)
    exact ⟨frame, t, ht, measured.config ▸ lt_of_stepFrame_iff ht⟩

/-- A talker that has run for a while makes progress. -/
theorem talker_advances : ∃ s, performAll [.runUntil 1000] ⟨talker, .fresh⟩ = .ok [.done] s ∧
    s.device.now = 1000 ∧ ∀ time : UInt64, time.toNat ≤ 2 ^ 59 → Reaches s time := by
  have hmain : talker.main.Paced := by simp [Processor.Paced, talker, build, Processor.ofScript]
  have hmcu : talker.mcu.Paced := by simp [Processor.Paced, talker, build, Processor.ofScript]
  have before : (1000 : UInt64) ≤ horizon := by decide
  have foreseen : Foreseen [.runUntil 1000] [] ⟨talker, .fresh⟩ := by
    simp [Foreseen, Call.target?, before]
  obtain ⟨answers, s, hs, progress⟩ := (frames_advance_iff talker.config talker.valid).2
    talker.main talker.mcu hmain hmcu talker.timer .fresh _ (by decide) foreseen
  obtain ⟨answer, t, hrun, hrest⟩ := bind_eq_ok.1 hs
  obtain ⟨_, u, hu, hrun⟩ := bind_eq_ok.1 hrun
  obtain ⟨rfl, rfl⟩ := pure_eq_ok.1 hrun
  obtain ⟨rfl, rfl⟩ := pure_eq_ok.1 hrest
  have hnow : u.device.now = 1000 := (arrived_of_runUntil hu).1
  have near : u.device.now.toNat < 2 ^ 59 := by
    rw [hnow]
    decide
  exact ⟨u, hs, hnow, (progress near).2.2 (by decide)⟩

/-- A machine whose clock has 59 cycles per second. Both periods are 59 cycles long. -/
def idler : Machine :=
  build { Config.standard with
    masterClockHz := 59, barcodeShiftUs := 1000000, displayTickUs := 1000000 } (by decide)
    (.ofScript #[] false) (.ofScript #[] false) none

/-- The configuration of an idler is valid. Its first frame succeeds and takes no time, and however
many frames it is given, they do not bring it to the first cycle. -/
theorem idler_stands_still : idler.config.Valid ∧
    (∃ frame t, stepFrame ⟨idler, .fresh⟩ = .ok frame t ∧ ¬ idler.now < t.device.now) ∧
      ¬ Reaches ⟨idler, .fresh⟩ 1 := by
  have paced : (Processor.ofScript #[] false).Paced := by
    simp [Processor.Paced, Processor.ofScript]
  have powerOn : Measured idler.config 0 idler :=
    measured_powerOn 0 (.build ..) ⟨paced, paced⟩ rfl rfl rfl rfl rfl rfl
  refine ⟨idler.valid, ?_, not_reaches (by decide) (by decide)⟩
  obtain ⟨frame, t, ht, -⟩ := powerOn.exists_frame (s := ⟨_, .fresh⟩) (by decide) (by decide)
  refine ⟨frame, t, ht, fun later => ?_⟩
  exact absurd ((lt_of_stepFrame_iff ht).1 later) (by decide)

end Machine

end CardComputer
