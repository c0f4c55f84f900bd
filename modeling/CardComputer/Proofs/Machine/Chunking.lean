import CardComputer.Proofs.Machine.CaughtUp

/-!
# Running in chunks

Running to a time and from there to a later one is running to the later time at once
(`Machine.run_in_chunks`). The clock does not matter, since every turn sets it anew. What remains of
the stop in between is that a stalled main unit catches up with it. The two runs go on side by side
with this difference (`Machine.Lagged`): no turn depends on it as long as the stall lasts, and the
end of the stall, which is not before the stop, makes up for it, as does the arrival.
-/

namespace CardComputer.Machine

open Op

/-- The machine at some time, with a main unit that has caught up with another one. -/
def lag (time now : UInt64) (m : Machine) : Machine :=
  { m with now, mainTime := max m.mainTime time }

/-- Two machines of which the second one's main unit has caught up with a time, and whose clocks may
differ. -/
def Lagged (time : UInt64) (s t : Observed Machine) : Prop :=
  ∃ now, t = ⟨lag time now s.device, s.log⟩

/-! ## Turns of a lagged machine -/

section Lagged

variable {time : UInt64}

/-- Lagged machines stay lagged when the same is done to them. -/
theorem sim_update_lagged {f : Machine → Machine}
    (h : ∀ now m, ∃ now', f (lag time now m) = lag time now' (f m)) :
    Sim Strict (Lagged time) (Lagged time) (· = ·) (update f) (update f) := by
  refine sim_update fun s t hst => ?_
  obtain ⟨now, rfl⟩ := hst
  obtain ⟨now', heq⟩ := h now s.device
  exact ⟨now', congrArg (Observed.mk · s.log) heq⟩

/-- The boards of lagged machines are the same. -/
theorem sim_onBoard_lagged {α : Type} (op : Op Board α) :
    Sim Strict (Lagged time) (Lagged time) (· = ·) (onBoard op) (onBoard op) := by
  refine sim_within (sim_refl op) ?_ ?_
  · rintro s _ ⟨now, rfl⟩
    rfl
  · rintro s _ x _ ⟨now, rfl⟩ rfl
    exact ⟨now, rfl⟩

theorem sim_say_lagged {c : Log.Category} {level : Log.Level} {text : Unit → String} :
    Sim Strict (Lagged time) (Lagged time) (· = ·) (say c level text) (say c level text) := by
  refine sim_report_same ?_ ?_
  · rintro s _ ⟨now, rfl⟩
    rfl
  · rintro s _ log ⟨now, rfl⟩
    exact ⟨now, rfl⟩

theorem sim_schedule_lagged (due : UInt64) (event : Event) :
    Sim Strict (Lagged time) (Lagged time) (· = ·) (schedule due event) (schedule due event) := by
  refine sim_bind sim_device ?_
  rintro _ _ ⟨s, _, ⟨now, rfl⟩, rfl, rfl⟩
  refine sim_bind sim_check ?_
  rintro timeline _ rfl
  exact sim_update_lagged fun now m => ⟨now, rfl⟩

theorem sim_scheduleAfter_lagged (due cycles : UInt64) (event : Event) :
    Sim Strict (Lagged time) (Lagged time) (· = ·)
      (scheduleAfter due cycles event) (scheduleAfter due cycles event) := by
  refine sim_bind sim_check ?_
  rintro due _ rfl
  exact sim_schedule_lagged due event

/-- What an event does; the end of a stall makes the main unit catch up even later. -/
theorem sim_dispatch_lagged (due : UInt64) (event : Event) :
    Sim Strict (Lagged time) (Lagged time) (· = ·) (dispatch due event) (dispatch due event) := by
  cases event with
  | barcodeShift =>
    refine sim_bind (sim_update_lagged fun now m => ⟨now, rfl⟩) fun _ _ _ => ?_
    refine sim_bind sim_device ?_
    rintro _ _ ⟨s, _, ⟨now, rfl⟩, rfl, rfl⟩
    exact sim_scheduleAfter_lagged due _ _
  | displayTick =>
    refine sim_bind (sim_onBoard_lagged _) fun _ _ _ => ?_
    refine sim_bind sim_device ?_
    rintro _ _ ⟨s, _, ⟨now, rfl⟩, rfl, rfl⟩
    exact sim_scheduleAfter_lagged due _ _
  | cardSwipe code => exact sim_onBoard_lagged _
  | keyChange key pressed =>
    exact sim_bind sim_say_lagged fun _ _ _ => sim_update_lagged fun now m => ⟨now, rfl⟩
  | speechDone generation =>
    refine sim_bind (sim_onBoard_lagged _) ?_
    rintro ended _ rfl
    refine sim_ite (fun _ => ?_) fun _ => sim_pure rfl
    refine sim_update_lagged fun now m => ⟨now, ?_⟩
    -- The end of the stall is put off by the one and the other, in whatever order.
    have hmax : max (max m.mainTime time) due = max (max m.mainTime due) time := by
      rw [← UInt64.toNat_inj]
      simp only [toNat_max]
      omega
    simp only [lag, hmax]

/-- An event happens. -/
theorem sim_takeEvent_lagged :
    Sim Strict (Lagged time) (Lagged time) (· = ·) takeEvent takeEvent := by
  refine sim_bind sim_device ?_
  rintro _ _ ⟨s, _, ⟨now, rfl⟩, rfl, rfl⟩
  -- The timeline of the lagged machine is the same.
  dsimp only [lag]
  split
  · exact sim_pure rfl
  · refine sim_bind (sim_update_lagged fun _ m => ⟨_, rfl⟩) fun _ _ _ => ?_
    exact sim_dispatch_lagged _ _

/-- A step of a processor. -/
theorem sim_stepUnit_lagged {get : Machine → Processor} {set : Processor → Machine → Machine}
    (bus : Bus Board) (hget : ∀ now m, get (lag time now m) = get m)
    (hset : ∀ p now m, set p (lag time now m) = lag time now (set p m)) :
    Sim Strict (Lagged time) (Lagged time) (· = ·)
      (stepUnit get set bus) (stepUnit get set bus) := by
  refine sim_stepUnit ?_ (fun p => sim_update_lagged fun now m => ⟨now, hset p now m⟩)
    fun a => sim_onBoard_lagged _
  rintro s _ ⟨now, rfl⟩
  exact hget now s.device

/-- The coprocessor makes a step. -/
theorem sim_takeMcu_lagged : Sim Strict (Lagged time) (Lagged time) (· = ·) takeMcu takeMcu := by
  refine sim_bind (sim_update_lagged fun _ m => ⟨_, rfl⟩) fun _ _ _ => ?_
  refine sim_bind (sim_stepUnit_lagged _ (fun _ _ => rfl) fun _ _ _ => rfl) ?_
  rintro cycles _ rfl
  refine sim_bind sim_device ?_
  rintro _ _ ⟨s, _, ⟨now, rfl⟩, rfl, rfl⟩
  refine sim_bind sim_check ?_
  rintro mcuTime _ rfl
  exact sim_update_lagged fun now m => ⟨now, rfl⟩

end Lagged

/-! ## Runs of a lagged machine -/

/-- A main unit that is not before a time has caught up with it already. -/
theorem lag_of_le {time now : UInt64} {m : Machine} (h : time ≤ m.mainTime) :
    lag time now m = { m with now } := by
  have hmax : max m.mainTime time = m.mainTime := by
    rw [UInt64.le_iff_toNat_le] at h
    rw [← UInt64.toNat_inj, toNat_max]
    omega
  simp only [lag, hmax]

/-- A machine that has caught up with a time has the same turns when it is lagged. -/
theorem turn?_lag {time now target : UInt64} {m : Machine} (h : m.CaughtUp time) :
    (lag time now m).turn? target = m.turn? target := by
  cases hs : m.isStalled with
  | false =>
    rw [lag_of_le (h.main hs)]
    rfl
  | true =>
    -- A stalled main unit is not due at all, however far it has caught up.
    have hmain : (lag time now m).mainDue = m.mainDue := by
      unfold mainDue
      rw [hs, if_pos rfl]
      exact if_pos hs
    unfold turn? unitDue
    rw [hmain]
    rfl

/-- A turn of a lagged machine is the same turn. -/
theorem take_lagged {time target : UInt64} {s t : Observed Machine} {turn : Turn}
    (h : Lagged time s t) (hs : s.device.CaughtUp time)
    (ht : s.device.turn? target = some turn) :
    Agree Strict (· = ·) (fun s t => Lagged time s t ∧ s.device.CaughtUp time)
      (take turn s) (take turn t) := by
  have hstep : Agree Strict (· = ·) (Lagged time) (take turn s) (take turn t) := by
    cases turn with
    | event => exact sim_takeEvent_lagged s t h
    | mcu => exact sim_takeMcu_lagged s t h
    | main =>
      -- The main unit only steps when it is not stalled, and then only the clocks differ.
      obtain ⟨now, rfl⟩ := h
      have hle := hs.main (turn?_eq_main ht).1
      have hsame : takeMain ⟨lag time now s.device, s.log⟩ = takeMain s := by
        rw [lag_of_le hle]
        rfl
      show Agree _ _ _ (takeMain s) (takeMain _)
      rw [hsame]
      refine ((sim_refl takeMain s s rfl).and_left (P := fun s' => time ≤ s'.device.mainTime)
        fun _ s' hr => ?_).mono (fun _ _ h => h) ?_
      · exact UInt64.le_trans hle (effect_of_takeMain hr).timing.main
      · rintro s' _ ⟨rfl, hle'⟩
        refine ⟨s'.device.now, ?_⟩
        rw [lag_of_le hle']
  exact hstep.and_left fun _ _ hr => hs.effect ht (effect_of_take ht hr)

/-- Runs of lagged machines. -/
theorem sim_turns_lagged {time target : UInt64} :
    Sim Strict (fun s t => Lagged time s t ∧ s.device.CaughtUp time)
      (fun s t => (Lagged time s t ∧ s.device.CaughtUp time) ∧ s.device.turn? target = none)
      (· = ·) (turns target) (turns target) := by
  refine sim_turns ?_ ?_
  · rintro s _ ⟨⟨now, rfl⟩, hs⟩
    exact turn?_lag hs
  · rintro s t turn ⟨hst, hs⟩ ht
    exact take_lagged hst hs ht

/-- Lagged machines arrive alike at a time that is not before the one they differ by. -/
theorem arrive_lag {time now target : UInt64} {m : Machine} (hle : time ≤ target)
    (h : m.CaughtUp time) : arrive target (lag time now m) = arrive target m := by
  cases hs : m.isStalled with
  | false =>
    rw [lag_of_le (h.main hs)]
    rfl
  | true =>
    -- A stalled main unit arrives at the later of the two times.
    have hmax : max (max m.mainTime time) target = max m.mainTime target := by
      rw [UInt64.le_iff_toNat_le] at hle
      rw [← UInt64.toNat_inj]
      simp only [toNat_max]
      omega
    have hs' : (lag time now m).isStalled = true := hs
    unfold arrive
    rw [hs, hs']
    simp only [lag, hmax, if_true]

/-- An arrival leaves a lagged machine. -/
theorem arrive_eq_lag {time : UInt64} {m : Machine} (h : m.CaughtUp time) :
    arrive time m = lag time time m := by
  cases hs : m.isStalled with
  | false =>
    rw [lag_of_le (h.main hs)]
    simp [arrive, hs]
  | true => simp [arrive, lag, hs]

/-! ## Chunks -/

/-- Two operations end alike: in the same state, or with the same fault. -/
def EndAlike {α β : Type} (r : EStateM.Result Fault (Observed Machine) α)
    (r' : EStateM.Result Fault (Observed Machine) β) : Prop :=
  Agree Strict (fun _ _ => True) (· = ·) r r'

namespace EndAlike

variable {α β γ : Type} {r : EStateM.Result Fault (Observed Machine) α}
  {r' : EStateM.Result Fault (Observed Machine) β} {r'' : EStateM.Result Fault (Observed Machine) γ}

theorem symm (h : EndAlike r r') : EndAlike r' r := by
  cases h with
  | ok _ states => exact .ok trivial states.symm
  | fault => exact .fault
  | excused h => exact False.elim h

theorem trans (h : EndAlike r r') (h' : EndAlike r' r'') : EndAlike r r'' := by
  cases h with
  | ok _ states =>
    obtain ⟨_, t, rfl, -, rfl⟩ := h'.ok_right
    exact .ok trivial states
  | fault =>
    cases h' with
    | fault => exact .fault
    | excused h => exact False.elim h
  | excused h => exact False.elim h

/-- An operation ends where it was before an answer is put together. -/
theorem of_answer {op : Op Machine α} {answer : α → Op Machine β}
    (h : ∀ a t, ∃ b, answer a t = .ok b t) (s : Observed Machine) :
    EndAlike ((op >>= answer) s) (op s) := by
  cases hop : op s with
  | ok a t =>
    obtain ⟨b, hb⟩ := h a t
    rw [bind_of_ok hop, hb]
    exact .ok trivial rfl
  | error f t =>
    rw [bind_of_error hop]
    exact .fault

end EndAlike

/-- Lagged machines end alike when they are run to a time that is not before the one they differ
by. -/
theorem sim_runUntil_lagged {a b : UInt64} (hab : a ≤ b) :
    Sim Strict (fun s t => Lagged a s t ∧ s.device.CaughtUp a) (· = ·) (· = ·)
      (runUntil b) (runUntil b) := by
  rw [runUntil_eq]
  refine sim_bind sim_turns_lagged fun _ _ _ => sim_update ?_
  rintro s _ ⟨⟨⟨now, rfl⟩, hs⟩, -⟩
  exact congrArg (Observed.mk · s.log) (arrive_lag hab hs).symm

/-- A run to a later time may stop in between. -/
theorem endAlike_runUntil {a b : UInt64} (hab : a ≤ b) (s : Observed Machine) :
    EndAlike ((do runUntil a; runUntil b : Op Machine Unit) s) (runUntil b s) := by
  -- Both runs take the same turns up to `a`. From there on the one that stops is lagged.
  have chunks : (do runUntil a; runUntil b : Op Machine Unit) =
      (do turns a; (do Op.update (arrive a); runUntil b)) := by
    rw [runUntil_eq a, bind_assoc]
  have whole : runUntil b s = (do turns a; runUntil b : Op Machine Unit) s := by
    rw [runUntil_eq b, ← bind_assoc]
    exact bind_congr_run (turns_turns hab s).symm
  have first : Sim Strict (· = ·) (fun s t => s = t ∧ s.device.CaughtUp a) (· = ·)
      (turns a) (turns a) := by
    rintro s _ rfl
    exact (sim_refl (turns a) s s rfl).and_left fun _ _ ht => caughtUp_of_turns ht
  have second : Sim Strict (fun s t => s = t ∧ s.device.CaughtUp a) (· = ·) (· = ·)
      (runUntil b) (do Op.update (arrive a); runUntil b) := by
    rintro s _ ⟨rfl, hs⟩
    refine sim_runUntil_lagged hab s ⟨arrive a s.device, s.log⟩ ⟨⟨a, ?_⟩, hs⟩
    rw [arrive_eq_lag hs]
  rw [chunks, whole]
  refine EndAlike.symm ?_
  exact (sim_bind first (fun _ _ _ => second) s s rfl).mono (fun _ _ _ => trivial) fun _ _ h => h

/-- Steps a number of frames; answers with what the display shows after each. -/
def stepFrames : Nat → Op Machine (List Frame)
  | 0 => return []
  | n + 1 => do
    let frame ← stepFrame
    let frames ← stepFrames n
    return frame :: frames

/-- A frame is a run of as many cycles as a frame has, if their end is still a time. -/
theorem stepFrame_eq {s : Observed Machine} {target : UInt64}
    (h : target.toNat = s.device.now.toNat + s.device.config.frameCycles.toNat) :
    stepFrame s = (do runUntil target; return (← Op.device).frame : Op Machine Frame) s := by
  have hadd := checkedAdd_eq_ok_iff.2 h
  have hrun : runFor s.device.config.frameCycles s = runUntil target s := by
    refine (bind_of_ok (device_eq_ok.2 ⟨rfl, rfl⟩)).trans ?_
    exact bind_of_ok (check_eq_ok.2 ⟨hadd, rfl⟩)
  refine (bind_of_ok (device_eq_ok.2 ⟨rfl, rfl⟩)).trans ?_
  exact bind_congr_run hrun

/-- A frame ends like a run of as many cycles. -/
theorem endAlike_stepFrame {s : Observed Machine} {target : UInt64}
    (h : target.toNat = s.device.now.toNat + s.device.config.frameCycles.toNat) :
    EndAlike (stepFrame s) (runUntil target s) := by
  rw [stepFrame_eq h]
  exact .of_answer (fun _ t => ⟨t.device.frame, rfl⟩) s

/-- A run ends at its target and keeps the configuration. -/
theorem now_config_of_runUntil {target : UInt64} {s s' : Observed Machine}
    (h : runUntil target s = .ok () s') :
    s'.device.now = target ∧ s'.device.config = s.device.config := by
  obtain ⟨t, ht, rfl⟩ := runUntil_eq_ok.1 h
  have hconfig := (turns_invariant (P := fun m => m.config = s.device.config)
    (fun _ _ _ hm _ he => he.config_eq.trans hm) rfl ht).1
  exact ⟨rfl, hconfig⟩

/-- Frames end like one run of as many cycles as they all have, if their end is still a time. -/
theorem endAlike_stepFrames {n : Nat} {s : Observed Machine} {target : UInt64}
    (h : target.toNat =
      s.device.now.toNat + (n + 1) * s.device.config.frameCycles.toNat) :
    EndAlike (stepFrames (n + 1) s) (runUntil target s) := by
  induction n generalizing s with
  | zero =>
    have hframe : EndAlike (stepFrame s) (runUntil target s) := endAlike_stepFrame (by omega)
    exact .trans (.of_answer (fun frame _ => ⟨[frame], rfl⟩) s) hframe
  | succ n ih =>
    rw [Nat.add_mul, Nat.one_mul] at h
    -- The end of the first frame is a time, since the end of all frames is.
    have hlt := target.toNat_lt
    obtain ⟨first, hfirst⟩ : ∃ first : UInt64,
        first.toNat = s.device.now.toNat + s.device.config.frameCycles.toNat :=
      ⟨UInt64.ofNat _, UInt64.toNat_ofNat_of_lt' (by unfold UInt64.size; omega)⟩
    have hle : first ≤ target := by
      rw [UInt64.le_iff_toNat_le]
      omega
    refine EndAlike.trans ?_ (endAlike_runUntil hle s)
    have hframe := stepFrame_eq hfirst
    cases hrun : runUntil first s with
    | error f t =>
      have hstep : stepFrame s = .error f t := by
        rw [hframe, bind_of_error hrun]
      rw [bind_of_error hrun]
      unfold stepFrames
      rw [bind_of_error hstep]
      exact .fault
    | ok _ t =>
      have hstep : stepFrame s = .ok t.device.frame t := by
        rw [hframe, bind_of_ok hrun]
        rfl
      obtain ⟨hnow, hconfig⟩ := now_config_of_runUntil hrun
      have hrest : EndAlike (stepFrames (n + 1) t) (runUntil target t) := by
        refine ih ?_
        rw [hnow, hconfig]
        omega
      rw [bind_of_ok hrun]
      unfold stepFrames
      rw [bind_of_ok hstep]
      exact .trans (.of_answer (fun frames _ => ⟨t.device.frame :: frames, rfl⟩) t) hrest

/-- Chunking a run does not change it. From every machine, a run to a time followed by one to a
later time ends like a run to the later time alone: in the same state, log included, or with the
same fault. So do frames, one or more, and one run of as many cycles as they have together, if the
end of it is still a time. -/
theorem run_in_chunks (s : Observed Machine) :
    (∀ a b : UInt64, a ≤ b →
      EndAlike ((do runUntil a; runUntil b : Op Machine Unit) s) (runUntil b s)) ∧
    ∀ (n : Nat) (target : UInt64), 1 ≤ n →
      target.toNat = s.device.now.toNat + n * s.device.config.frameCycles.toNat →
      EndAlike (stepFrames n s) (runUntil target s) := by
  refine ⟨fun a b hab => endAlike_runUntil hab s, fun n target hn htarget => ?_⟩
  obtain ⟨k, rfl⟩ := Nat.exists_eq_add_of_le' hn
  exact endAlike_stepFrames htarget

/-- A stop during the word of the talker, and two of its frames. -/
theorem talker_in_chunks :
    EndAlike ((do runUntil 100; runUntil 1000 : Op Machine Unit) ⟨talker, .fresh⟩)
      (runUntil 1000 ⟨talker, .fresh⟩) ∧
    EndAlike (stepFrames 2 ⟨talker, .fresh⟩) (runUntil 166666 ⟨talker, .fresh⟩) :=
  ⟨(run_in_chunks _).1 100 1000 (by decide),
    (run_in_chunks _).2 2 166666 (by decide) (by rfl)⟩

end CardComputer.Machine
