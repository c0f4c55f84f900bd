import CardComputer.Proofs.Board.Outcome
import CardComputer.Proofs.Board.Unlogged
import CardComputer.Proofs.Machine.Journal
import CardComputer.Proofs.Op.Success

/-!
# Room for a turn

The sums that a turn works out fit if no counter and no clock is close to its end
(`Machine.HasRoom`). Then every turn succeeds, whatever the log (`Machine.succeeds_take`).
-/

namespace CardComputer

open Op

/-! ## The stall control -/

/-- A completion is heeded or ignored while there is a number left to count the stalls. -/
theorem StallControl.succeeds_complete {s : Observed StallControl}
    (h : s.device.isStalled = true → s.device.stalls.toNat + 1 < UInt64.size)
    (generation : UInt64) : Succeeds (StallControl.complete generation) s := by
  apply succeeds_device_bind
  split
  · rename_i hc
    rw [Bool.and_eq_true] at hc
    refine succeeds_say_bind fun log => succeeds_update_bind ?_
    refine succeeds_bind (succeeds_checkedAdd (h hc.1) _) fun stalls t ht => ?_
    exact succeeds_update_bind (succeeds_pure _ _)
  · exact succeeds_say_bind fun log => succeeds_pure _ _

/-- Cycles are counted while they fit. -/
theorem StallControl.succeeds_advance {s : Observed StallControl} {cycles : UInt32}
    (h : s.device.gatedCycles.toNat + cycles.toNat < UInt64.size) :
    Succeeds (StallControl.advance cycles) s := by
  apply succeeds_device_bind
  split
  · exact succeeds_pure _ _
  · have hfits : s.device.gatedCycles.toNat + cycles.toUInt64.toNat < UInt64.size := by
      rw [UInt32.toNat_toUInt64]
      exact h
    refine succeeds_bind (succeeds_checkedAdd hfits _) fun gatedCycles t ht => ?_
    exact succeeds_update_bind (succeeds_pure _ _)

/-- A step of the main unit counts no cycles and begins one stall at most. -/
theorem Processor.Step.main_stall {p p' : Processor} {b b' : Board} {cycles : UInt32}
    (h : p.Step Board.mainBus b p' b' cycles) :
    b'.stall.gatedCycles = b.stall.gatedCycles ∧
      b'.stall.generation.toNat ≤ b.stall.generation.toNat + 1 := by
  rcases h.main_cases with ⟨-, mailbox, rfl⟩ | ⟨word, -, ⟨-, rfl⟩ | ⟨-, generation, hnext, rfl⟩⟩
  · exact ⟨rfl, Nat.le_succ _⟩
  · exact ⟨rfl, Nat.le_succ _⟩
  · exact ⟨rfl, Nat.le_of_eq hnext⟩

namespace Machine

/-- Whatever the next turn adds to a counter or a clock still fits. -/
structure HasRoom (m : Machine) : Prop where
  /-- There is a number for one more event. -/
  numbers : m.timeline.nextSeq.toNat + 1 < UInt64.size
  /-- There is a time for the next shift of the sensor. -/
  shift : ∀ e ∈ m.timeline.entries, e.event = .barcodeShift →
    e.time.toNat + m.config.barcodeShiftCycles.toNat < UInt64.size
  /-- There is a time for the next display tick. -/
  tick : ∀ e ∈ m.timeline.entries, e.event = .displayTick →
    e.time.toNat + m.config.displayTickCycles.toNat < UInt64.size
  /-- There is a number for one more display tick. -/
  ticks : m.board.display.now.toNat + 1 < UInt64.size
  /-- No more half-bits are to come than a swipe has. -/
  scanner : m.board.scanner.remaining ≤ Swipe.halfBits.toUInt8
  /-- There is a number for one more stall. -/
  generation : m.board.stall.generation.toNat + 1 < UInt64.size
  /-- The stall can be counted when it ends. -/
  stalls : m.isStalled = true → m.board.stall.stalls.toNat + 1 < UInt64.size
  /-- The cycles of the next step of the main unit can be counted. -/
  gated : m.board.stall.gatedCycles.toNat + m.main.nextCycles.toNat < UInt64.size
  /-- There is a time for the end of that step. -/
  main : m.mainTime.toNat + (masterCycles m.main.nextCycles m.config.mainDivider).toNat <
    UInt64.size
  /-- There is a time for the end of the next step of the coprocessor. -/
  mcu : m.mcuTime.toNat + (masterCycles m.mcu.nextCycles m.config.mcuDivider).toNat < UInt64.size

/-! ## The parts of a turn -/

section Parts

variable {s : Observed Machine}

theorem succeeds_onBoard {α : Type} {op : Op Board α} (h : Succeeds op ⟨s.device.board, s.log⟩) :
    Succeeds (onBoard op) s :=
  succeeds_within h

/-- An event is scheduled while there is a number for it. -/
theorem succeeds_schedule (h : s.device.timeline.nextSeq.toNat + 1 < UInt64.size)
    (time : UInt64) (event : Event) : Succeeds (schedule time event) s := by
  apply succeeds_device_bind
  obtain ⟨next, hnext⟩ : ∃ next, checkedAdd s.device.timeline.nextSeq 1 = .ok next :=
    exists_checkedAdd h
  have hok : ∃ timeline, s.device.timeline.schedule time event = .ok timeline := by
    unfold Timeline.schedule
    rw [hnext]
    exact ⟨_, rfl⟩
  exact succeeds_bind (succeeds_check hok s) fun timeline t ht => succeeds_update _ _

/-- An event is scheduled for later while there are a number and a time for it. -/
theorem succeeds_scheduleAfter {time cycles : UInt64}
    (hseq : s.device.timeline.nextSeq.toNat + 1 < UInt64.size)
    (htime : time.toNat + cycles.toNat < UInt64.size) (event : Event) :
    Succeeds (scheduleAfter time cycles event) s := by
  refine succeeds_bind (succeeds_checkedAdd htime s) fun due t ht => ?_
  obtain ⟨-, rfl⟩ := check_eq_ok.1 ht
  exact succeeds_schedule hseq due event

/-- A step of a processor succeeds if the accesses to its bus do. -/
theorem succeeds_stepUnit {get : Machine → Processor} {set : Processor → Machine → Machine}
    {bus : Bus Board} (hboard : ∀ p m, (set p m).board = m.board)
    (hbus : ∀ a : Access, Succeeds (a.perform bus) ⟨s.device.board, s.log⟩) :
    Succeeds (stepUnit get set bus) s := by
  apply succeeds_device_bind
  split
  · exact succeeds_update_bind (succeeds_pure _ _)
  · rename_i i p _
    apply succeeds_update_bind
    have access : Succeeds (onBoard (i.access.perform bus)) ⟨set p s.device, s.log⟩ := by
      apply succeeds_onBoard
      rw [hboard]
      exact hbus i.access
    exact succeeds_bind access fun read t ht => succeeds_update_bind (succeeds_pure _ _)

/-- A word is timed while there is a number for its completion. -/
theorem succeeds_timePlayback (h : s.device.timeline.nextSeq.toNat + 1 < UInt64.size) :
    Succeeds timePlayback s := by
  have taken : Succeeds (onBoard (Op.change Board.takePlayback)) s :=
    succeeds_onBoard ((does_change _).succeeds _)
  refine succeeds_bind taken fun word t ht => ?_
  obtain ⟨b, -, rfl⟩ := within_eq_ok.1 ht
  cases word with
  | none => exact succeeds_pure _ _
  | some word =>
    apply succeeds_device_bind
    split
    · exact succeeds_pure _ _
    · apply succeeds_update_bind
      apply succeeds_schedule
      exact h

end Parts

/-! ## Turns -/

/-- An event happens. -/
theorem HasRoom.succeeds_takeEvent {m : Machine} (room : m.HasRoom) (log : Log) :
    Succeeds takeEvent ⟨m, log⟩ := by
  apply succeeds_device_bind
  dsimp only
  cases hp : m.timeline.pop? with
  | none => exact succeeds_pure _ _
  | some next =>
    obtain ⟨e, rest⟩ := next
    apply succeeds_update_bind
    have hmem := Timeline.mem_of_pop hp
    -- Taking the entry away leaves the numbers that are left.
    have hseq : rest.nextSeq.toNat + 1 < UInt64.size :=
      (Timeline.pop?_eq_some.1 hp).2 ▸ room.numbers
    cases kind : e.event with
    | barcodeShift =>
      exact succeeds_update_bind
        (succeeds_device_bind (succeeds_scheduleAfter hseq (room.shift e hmem kind) _))
    | displayTick =>
      obtain ⟨d, hd⟩ := Display.exists_tick room.ticks log
      refine succeeds_bind (succeeds_onBoard (succeeds_within ⟨(), d, hd⟩)) fun _ t ht => ?_
      obtain ⟨b, -, rfl⟩ := within_eq_ok.1 ht
      exact succeeds_device_bind (succeeds_scheduleAfter hseq (room.tick e hmem kind) _)
    | cardSwipe code =>
      obtain ⟨log', hswipe⟩ := Scanner.swipe_eq_ok_of_le (s := ⟨m.board.scanner, log⟩) code
        room.scanner
      exact succeeds_onBoard (succeeds_within ⟨_, _, hswipe⟩)
    | keyChange key pressed => exact succeeds_say_bind fun log => succeeds_update _ _
    | speechDone generation =>
      have complete := StallControl.succeeds_complete (s := ⟨m.board.stall, log⟩) room.stalls
        generation
      refine succeeds_bind (succeeds_onBoard (succeeds_within complete)) fun ended t ht => ?_
      split
      · exact succeeds_update _ _
      · exact succeeds_pure _ _

/-- The coprocessor makes a step. -/
theorem HasRoom.succeeds_takeMcu {m : Machine} (room : m.HasRoom) (log : Log) :
    Succeeds takeMcu ⟨m, log⟩ := by
  apply succeeds_update_bind
  refine succeeds_bind (succeeds_stepUnit (fun _ _ => rfl) fun a =>
    (Board.does_perform_mcuBus a).succeeds _) fun cycles t ht => ?_
  obtain ⟨p, b, step, hd⟩ := step_of_stepUnit ht (fun _ _ => rfl) (fun _ _ _ => rfl)
    (fun _ _ => rfl) (fun _ _ _ => rfl)
  obtain rfl : cycles = m.mcu.nextCycles := step.cycles_eq
  apply succeeds_device_bind
  rw [hd]
  exact succeeds_bind (succeeds_checkedAdd room.mcu _) fun mcuTime u hu => succeeds_update _ _

/-- The main unit makes a step. -/
theorem HasRoom.succeeds_takeMain {m : Machine} (room : m.HasRoom) (log : Log) :
    Succeeds takeMain ⟨m, log⟩ := by
  apply succeeds_update_bind
  have access (a : Access) :
      Succeeds (a.perform Board.mainBus) ⟨m.board.setTime m.mainTime, log⟩ :=
    Board.exists_perform_mainBus (b := m.board.setTime m.mainTime) (fun _ => room.generation) a log
  refine succeeds_bind (succeeds_stepUnit (fun _ _ => rfl) access) fun cycles t ht => ?_
  obtain ⟨p, b, step, hd⟩ := step_of_stepUnit ht (fun _ _ => rfl) (fun _ _ _ => rfl)
    (fun _ _ => rfl) (fun _ _ _ => rfl)
  obtain rfl : cycles = m.main.nextCycles := step.cycles_eq
  -- The step may begin a stall, but it counts no cycles.
  have gated : b.stall.gatedCycles = m.board.stall.gatedCycles := step.main_stall.1
  have counted : Succeeds (onBoard (Board.onStall (StallControl.advance m.main.nextCycles))) t := by
    apply succeeds_onBoard
    apply succeeds_within
    apply StallControl.succeeds_advance
    rw [hd]
    exact gated ▸ room.gated
  refine succeeds_bind counted fun _ u hu => ?_
  obtain ⟨board, -, rfl⟩ := within_eq_ok.1 hu
  apply succeeds_device_bind
  rw [hd]
  refine succeeds_bind (succeeds_checkedAdd room.main _) fun mainTime v hv => ?_
  obtain ⟨-, rfl⟩ := check_eq_ok.1 hv
  exact succeeds_update_bind (succeeds_timePlayback room.numbers)

/-- A turn succeeds if the machine has room for it, whatever the log. -/
theorem HasRoom.succeeds_take {m : Machine} (room : m.HasRoom) (turn : Turn) (log : Log) :
    Succeeds (take turn) ⟨m, log⟩ := by
  cases turn with
  | event => exact room.succeeds_takeEvent log
  | mcu => exact room.succeeds_takeMcu log
  | main => exact room.succeeds_takeMain log

end Machine

end CardComputer
