import CardComputer.Proofs.Board.Faults
import CardComputer.Proofs.Machine.Run
import CardComputer.Proofs.Timeline.Renumbering

/-!
# The end of runs

Every run ends (`Machine.run_ends`). It takes at most as many turns as there is work on the agenda,
and then either nothing is left to do before its target, and the machine arrives, or the next turn
has a fault of arithmetic. This is so of every machine, also of one that no host can bring about,
with any events on its timeline and any times of its processors.

The turns are counted by `Machine.after?`, which recurses on their number, so that the bound does
not rest on how a run is defined.
-/

namespace CardComputer.Machine

open Op

/-! ## The faults of turns -/

theorem raises_onBoard {α : Type} {op : Op Board α} (h : Raises Fault.IsArithmetic op) :
    Raises Fault.IsArithmetic (onBoard op) :=
  raises_within h

theorem raises_schedule (time : UInt64) (event : Event) :
    Raises Fault.IsArithmetic (schedule time event) := by
  refine raises_bind raises_device fun m => ?_
  refine raises_bind (raises_check fun fault h => ?_) fun _ => raises_update _
  rw [Timeline.schedule_eq_error h]
  trivial

theorem raises_scheduleAfter (time cycles : UInt64) (event : Event) :
    Raises Fault.IsArithmetic (scheduleAfter time cycles event) := by
  apply raises_bind (raises_check fun fault h => isArithmetic_of_checkedAdd h)
  intro due
  exact raises_schedule due event

/-- What an event does. -/
theorem raises_dispatch (time : UInt64) (event : Event) :
    Raises Fault.IsArithmetic (dispatch time event) := by
  cases event with
  | barcodeShift =>
    refine raises_bind (raises_update _) fun _ => ?_
    exact raises_bind raises_device fun m => raises_scheduleAfter _ _ _
  | displayTick =>
    apply raises_bind (raises_onBoard (raises_within Display.raises_tick))
    intro _
    exact raises_bind raises_device fun m => raises_scheduleAfter _ _ _
  | cardSwipe code =>
    show Raises Fault.IsArithmetic (onBoard (Board.onScanner (Scanner.swipe code)))
    exact raises_onBoard (raises_within (Scanner.raises_swipe code))
  | keyChange key pressed => exact raises_bind raises_say fun _ => raises_update _
  | speechDone generation =>
    apply raises_bind (raises_onBoard (raises_within (StallControl.raises_complete generation)))
    intro ended
    exact raises_ite (raises_update _) (raises_pure _)

theorem raises_takeEvent : Raises Fault.IsArithmetic takeEvent := by
  refine raises_bind raises_device fun m => ?_
  split
  · exact raises_pure _
  · exact raises_bind (raises_update _) fun _ => raises_dispatch _ _

/-- A step of a processor on a bus. -/
theorem raises_stepUnit {get : Machine → Processor} {set : Processor → Machine → Machine}
    {bus : Bus Board} (hbus : ∀ a : Access, Raises Fault.IsArithmetic (a.perform bus)) :
    Raises Fault.IsArithmetic (stepUnit get set bus) := by
  refine raises_bind raises_device fun m => ?_
  split
  · exact raises_bind (raises_update _) fun _ => raises_pure _
  · refine raises_bind (raises_update _) fun _ => ?_
    apply raises_bind (raises_onBoard (hbus _))
    intro read
    exact raises_bind (raises_update _) fun _ => raises_pure _

theorem raises_takeMcu : Raises Fault.IsArithmetic takeMcu := by
  refine raises_bind (raises_update _) fun _ => ?_
  apply raises_bind (raises_stepUnit Board.raises_perform_mcuBus)
  intro cycles
  refine raises_bind raises_device fun m => ?_
  exact raises_bind (raises_check fun fault h => isArithmetic_of_checkedAdd h)
    fun mcuTime => raises_update _

/-- Timing a word. -/
theorem raises_timePlayback : Raises Fault.IsArithmetic timePlayback := by
  apply raises_bind (raises_onBoard (does_change _).raises)
  intro waiting
  cases waiting with
  | none => exact raises_pure _
  | some word =>
    refine raises_bind raises_device fun m => ?_
    dsimp only
    cases m.timer with
    | none => exact raises_pure _
    | some timer => exact raises_bind (raises_update _) fun _ => raises_schedule _ _

theorem raises_takeMain : Raises Fault.IsArithmetic takeMain := by
  refine raises_bind (raises_update _) fun _ => ?_
  apply raises_bind (raises_stepUnit Board.raises_perform_mainBus)
  intro cycles
  apply raises_bind (raises_onBoard (raises_within (StallControl.raises_advance cycles)))
  intro counted
  refine raises_bind raises_device fun m => ?_
  apply raises_bind (raises_check fun fault h => isArithmetic_of_checkedAdd h)
  intro mainTime
  exact raises_bind (raises_update _) fun _ => raises_timePlayback

/-- A turn has no faults but those of arithmetic. -/
theorem raises_take (turn : Turn) : Raises Fault.IsArithmetic (take turn) := by
  cases turn with
  | event => exact raises_takeEvent
  | mcu => exact raises_takeMcu
  | main => exact raises_takeMain

/-! ## Runs -/

/-- How a run from `s` is over when its turns have led to `t`. -/
inductive Over (target : UInt64) (s t : Observed Machine) : Prop
  /-- Nothing is left to do before the target, and the machine arrives. -/
  | arrived (idle : t.device.turn? target = none)
    (result : runUntil target s = .ok () { t with device := arrive target t.device })
  /-- The next turn has a fault of arithmetic, and so has the run. -/
  | failed {turn : Turn} {fault : Fault} {u : Observed Machine}
    (next : t.device.turn? target = some turn) (failure : take turn t = .error fault u)
    (arithmetic : fault.IsArithmetic) (result : runUntil target s = .error fault u)

/-- A run goes on after its first turn. -/
theorem Over.of_turn {target : UInt64} {turn : Turn} {s s' t : Observed Machine}
    (h : Over target s' t) (ht : s.device.turn? target = some turn) (hs : take turn s = .ok () s') :
    Over target s t := by
  have hrun : runUntil target s = runUntil target s' := by
    rw [runUntil_eq]
    exact bind_congr_run ((turns_of_some ht).trans (bind_of_ok hs))
  cases h with
  | arrived idle result => exact .arrived idle (hrun.trans result)
  | failed next failure arithmetic result =>
    exact .failed next failure arithmetic (hrun.trans result)

/-- The turns after the first one. -/
theorem after?_succ {target : UInt64} {turn : Turn} {s s' : Observed Machine}
    (ht : s.device.turn? target = some turn) (hs : take turn s = .ok () s') (n : Nat) :
    after? target (n + 1) s = after? target n s' := by
  have hstate : state? (take turn) s = some s' := by
    unfold state?
    rw [hs]
  rw [after?, ht]
  dsimp only
  rw [hstate]
  rfl

/-- There is no first turn, or it fails. -/
theorem after?_eq_none {target : UInt64} {s : Observed Machine} {n : Nat} (hn : 0 < n)
    (h : ∀ turn, s.device.turn? target = some turn → ∃ fault t, take turn s = .error fault t) :
    after? target n s = none := by
  obtain ⟨n, rfl⟩ := Nat.exists_eq_add_one.2 hn
  unfold after?
  split
  · rfl
  · rename_i turn ht
    obtain ⟨fault, t, hs⟩ := h turn ht
    unfold state?
    rw [hs]
    rfl

/-- Every run ends. Of every machine, whatever its log, so many turns and no more are taken before a
time, at most as many as there is work to do; then nothing is left to do and the machine arrives, or
the next turn has a fault of arithmetic. -/
theorem run_ends (target : UInt64) (s : Observed Machine) :
    ∃ n t, n ≤ s.device.agenda.work target ∧ after? target n s = some t ∧
      (∀ k, n < k → after? target k s = none) ∧ Over target s t := by
  -- The induction is over the turns; every one of them leaves less work.
  induction s using turns_induct target with
  | stop s ht =>
    refine ⟨0, s, Nat.zero_le _, rfl, fun k hk => ?_, ?_⟩
    · apply after?_eq_none hk
      intro turn hturn
      rw [ht] at hturn
      cases hturn
    · exact .arrived ht (runUntil_eq_ok.2 ⟨s, turns_of_none ht, rfl⟩)
  | go s turn ht ih =>
    cases hs : take turn s with
    | ok _ s' =>
      obtain ⟨n, t, hle, hafter, hlast, hover⟩ := ih s' hs
      have hless := work_take_lt ht hs
      refine ⟨n + 1, t, by omega, ?_, fun k hk => ?_, hover.of_turn ht hs⟩
      · rw [after?_succ ht hs]
        exact hafter
      · obtain ⟨k, rfl⟩ := Nat.exists_eq_add_one.2 (Nat.zero_lt_of_lt hk)
        rw [after?_succ ht hs]
        exact hlast k (by omega)
    | error fault u =>
      refine ⟨0, s, Nat.zero_le _, rfl, fun k hk => ?_, ?_⟩
      · apply after?_eq_none hk
        intro turn' ht'
        obtain rfl := Option.some.inj (ht.symm.trans ht')
        exact ⟨fault, u, hs⟩
      · have hturns : turns target s = .error fault u :=
          (turns_of_some ht).trans (bind_of_error hs)
        exact .failed ht hs (raises_take turn s fault u hs) (bind_of_error hturns)

end CardComputer.Machine
