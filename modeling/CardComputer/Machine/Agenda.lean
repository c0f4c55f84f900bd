import CardComputer.Machine.Turn

/-!
# The agenda

What is still to be done before a given time, as a number that every turn makes smaller
(`Machine.work_take_lt`). A turn may put new events on the timeline, so neither the length of the
timeline nor any one clock would do. This is where a machine needs its dividers and periods to be at
least one cycle.
-/

namespace CardComputer.Machine

/-! ## Work left -/

/-- What decides about the turns of a machine, apart from stalls. -/
structure Agenda where
  config : Config
  timeline : Timeline
  mainTime : UInt64
  mcuTime : UInt64

/-- The agenda of a machine. -/
def agenda (m : Machine) : Agenda := ⟨m.config, m.timeline, m.mainTime, m.mcuTime⟩

/-- A bound on the turns before a time. A step of the main unit counts more than any event, since it
may schedule one. -/
def Agenda.work (target : UInt64) (a : Agenda) : Nat :=
  a.timeline.timeLeft target + (target.toNat - a.mcuTime.toNat) +
    (target.toNat - a.mainTime.toNat) * (target.toNat + 1)

/-- What happens on the board leaves the agenda alone. -/
theorem keeps_onBoard {α : Type} (op : Op Board α) : Op.Keeps agenda (onBoard op) := by
  show Op.Keeps agenda (Op.within board (fun board m => { m with board }) op)
  exact Op.keeps_within (by intros; rfl) op

/-- Messages leave the agenda alone. -/
theorem keeps_say (c : Log.Category) (level : Log.Level) (text : Unit → String) :
    Op.Keeps agenda (Op.say c level text) :=
  Op.keeps_say c level text

/-- A step of a processor leaves the agenda alone. -/
theorem keeps_stepUnit {get : Machine → Processor} {set : Processor → Machine → Machine}
    (h : ∀ p m, (set p m).agenda = m.agenda) (bus : Bus Board) :
    Op.Keeps agenda (stepUnit get set bus) := by
  refine Op.keeps_bind Op.keeps_device fun m => ?_
  split
  · exact Op.keeps_bind (Op.keeps_update (h _)) fun _ => Op.keeps_pure _
  · exact Op.keeps_bind (Op.keeps_update (h _)) fun _ =>
      Op.keeps_bind (keeps_onBoard _) fun _ =>
        Op.keeps_bind (Op.keeps_update fun m => h _ m) fun _ => Op.keeps_pure _

/-- The greater of a word and one is at least one. -/
theorem one_le_max_one (c : UInt32) : 1 ≤ (max c 1).toNat := by
  have h : (max c 1 : UInt32) = if c ≤ 1 then 1 else c := rfl
  rw [h]
  split
  · decide
  · rename_i hc
    rw [UInt32.le_iff_toNat_le] at hc
    simp at hc
    omega

/-- A step takes at least one cycle. -/
theorem stepUnit_pos {get : Machine → Processor} {set : Processor → Machine → Machine}
    {bus : Bus Board} {s s' : Observed Machine} {cycles : UInt32}
    (h : stepUnit get set bus s = .ok cycles s') : 1 ≤ cycles.toNat := by
  unfold stepUnit at h
  obtain ⟨m, t, -, h⟩ := Op.bind_eq_ok.1 h
  rcases hf : (get m).fetch with ⟨_ | i, p⟩
  · simp only [hf] at h
    obtain ⟨_, _, -, h⟩ := Op.bind_eq_ok.1 h
    rw [← (Op.pure_eq_ok.1 h).1]
    decide
  · simp only [hf] at h
    obtain ⟨_, _, -, h⟩ := Op.bind_eq_ok.1 h
    obtain ⟨_, _, -, h⟩ := Op.bind_eq_ok.1 h
    obtain ⟨_, _, -, h⟩ := Op.bind_eq_ok.1 h
    rw [← (Op.pure_eq_ok.1 h).1]
    exact one_le_max_one _

/-- The master cycles of 32-bit words always fit in 64 bits. -/
theorem masterCycles_toNat (cycles divider : UInt32) :
    (masterCycles cycles divider).toNat = cycles.toNat * divider.toNat := by
  rw [masterCycles, UInt64.toNat_mul, UInt32.toNat_toUInt64, UInt32.toNat_toUInt64]
  exact Nat.mod_eq_of_lt (toNat_mul_toNat_lt cycles divider)

/-- At least one cycle takes at least one master cycle. -/
theorem masterCycles_pos {cycles divider : UInt32} (hc : 1 ≤ cycles.toNat) (hd : divider ≠ 0) :
    1 ≤ (masterCycles cycles divider).toNat := by
  rw [masterCycles_toNat]
  have : 1 ≤ divider.toNat := by
    rw [Nat.one_le_iff_ne_zero]
    exact fun h => hd (UInt32.toNat_inj.1 h)
  exact Nat.mul_le_mul hc this

/-- A step of the coprocessor only moves its time on. -/
theorem agenda_takeMcu {s s' : Observed Machine} (h : takeMcu s = .ok () s') :
    ∃ mcuTime, s'.device.agenda = { s.device.agenda with mcuTime } ∧
      s.device.mcuTime.toNat < mcuTime.toNat := by
  unfold takeMcu at h
  obtain ⟨_, t, ht, h⟩ := Op.bind_eq_ok.1 h
  obtain ⟨cycles, u, hu, h⟩ := Op.bind_eq_ok.1 h
  obtain ⟨m, v, hv, h⟩ := Op.bind_eq_ok.1 h
  obtain ⟨mcuTime, w, hw, h⟩ := Op.bind_eq_ok.1 h
  obtain ⟨rfl, rfl⟩ := Op.device_eq_ok.1 hv
  obtain ⟨hadd, rfl⟩ := Op.check_eq_ok.1 hw
  have hk : u.device.agenda = t.device.agenda :=
    keeps_stepUnit (by intros; rfl) _ _ _ _ hu
  -- The divider of a valid configuration is not zero, so the step takes time.
  have hpos := masterCycles_pos (stepUnit_pos hu)
    (Config.valid_iff.1 u.device.valid).2.2.1
  rw [checkedAdd_eq_ok_iff] at hadd
  have ht' := Op.update_eq_ok.1 ht
  have h' := Op.update_eq_ok.1 h
  subst ht' h'
  simp only [agenda, Agenda.mk.injEq] at hk ⊢
  refine ⟨mcuTime, ⟨hk.1, hk.2.1, hk.2.2.1, rfl⟩, ?_⟩
  rw [← hk.2.2.2]
  omega

/-- Scheduling only changes the timeline. -/
theorem agenda_schedule {time : UInt64} {event : Event} {s s' : Observed Machine}
    (h : schedule time event s = .ok () s') :
    ∃ timeline, s.device.timeline.schedule time event = .ok timeline ∧
      s'.device.agenda = { s.device.agenda with timeline } := by
  unfold schedule at h
  obtain ⟨m, t, ht, h⟩ := Op.bind_eq_ok.1 h
  obtain ⟨timeline, u, hu, h⟩ := Op.bind_eq_ok.1 h
  obtain ⟨rfl, rfl⟩ := Op.device_eq_ok.1 ht
  obtain ⟨hs, rfl⟩ := Op.check_eq_ok.1 hu
  have h' := Op.update_eq_ok.1 h
  subst h'
  exact ⟨timeline, hs, rfl⟩

/-- Scheduling some cycles later only changes the timeline. -/
theorem agenda_scheduleAfter {time cycles : UInt64} {event : Event} {s s' : Observed Machine}
    (h : scheduleAfter time cycles event s = .ok () s') :
    ∃ due timeline, due.toNat = time.toNat + cycles.toNat ∧
      s.device.timeline.schedule due event = .ok timeline ∧
      s'.device.agenda = { s.device.agenda with timeline } := by
  unfold scheduleAfter at h
  obtain ⟨due, t, ht, h⟩ := Op.bind_eq_ok.1 h
  obtain ⟨hd, rfl⟩ := Op.check_eq_ok.1 ht
  obtain ⟨timeline, hs, ha⟩ := agenda_schedule h
  exact ⟨due, timeline, checkedAdd_eq_ok_iff.1 hd, hs, ha⟩

/-- Timing a word puts at most one event on the timeline. -/
theorem agenda_timePlayback {s s' : Observed Machine} (h : timePlayback s = .ok () s') :
    ∃ timeline, s'.device.agenda = { s.device.agenda with timeline } ∧
      ∀ target, timeline.timeLeft target ≤ s.device.timeline.timeLeft target + target.toNat := by
  unfold timePlayback at h
  obtain ⟨word, t, ht, h⟩ := Op.bind_eq_ok.1 h
  have hk := keeps_onBoard _ _ _ _ ht
  -- Without a word or a timer the agenda is as after the request on the board.
  have unchanged (hs : t = s') : ∃ timeline, s'.device.agenda = { s.device.agenda with timeline } ∧
      ∀ target, timeline.timeLeft target ≤ s.device.timeline.timeLeft target + target.toNat := by
    subst hs
    exact ⟨_, hk, fun target => Nat.le_add_right ..⟩
  cases word with
  | none => exact unchanged (Op.pure_eq_ok.1 h).2
  | some word =>
    obtain ⟨m, u, hu, h⟩ := Op.bind_eq_ok.1 h
    obtain ⟨rfl, rfl⟩ := Op.device_eq_ok.1 hu
    cases htimer : t.device.timer with
    | none =>
      simp only [htimer] at h
      exact unchanged (Op.pure_eq_ok.1 h).2
    | some timer =>
      simp only [htimer] at h
      obtain ⟨_, v, hv, h⟩ := Op.bind_eq_ok.1 h
      have hv' := Op.update_eq_ok.1 hv
      obtain ⟨timeline, hs, ha⟩ := agenda_schedule h
      subst hv'
      refine ⟨timeline, ?_, fun target => ?_⟩
      · rw [ha]
        simp only [agenda, Agenda.mk.injEq] at hk ⊢
        exact ⟨hk.1, trivial, hk.2.2.1, hk.2.2.2⟩
      · rw [Timeline.timeLeft_schedule hs]
        simp only [agenda, Agenda.mk.injEq] at hk
        rw [hk.2.1]
        omega

/-- A step of the main unit moves its time on and puts at most one event on the timeline. -/
theorem agenda_takeMain {s s' : Observed Machine} (h : takeMain s = .ok () s') :
    ∃ mainTime timeline, s'.device.agenda = { s.device.agenda with mainTime, timeline } ∧
      s.device.mainTime.toNat < mainTime.toNat ∧
      ∀ target, timeline.timeLeft target ≤ s.device.timeline.timeLeft target + target.toNat := by
  unfold takeMain at h
  obtain ⟨_, t, ht, h⟩ := Op.bind_eq_ok.1 h
  obtain ⟨cycles, u, hu, h⟩ := Op.bind_eq_ok.1 h
  obtain ⟨_, v, hv, h⟩ := Op.bind_eq_ok.1 h
  obtain ⟨m, w, hw, h⟩ := Op.bind_eq_ok.1 h
  obtain ⟨mainTime, x, hx, h⟩ := Op.bind_eq_ok.1 h
  obtain ⟨_, y, hy, h⟩ := Op.bind_eq_ok.1 h
  obtain ⟨rfl, rfl⟩ := Op.device_eq_ok.1 hw
  obtain ⟨hadd, rfl⟩ := Op.check_eq_ok.1 hx
  have hk : u.device.agenda = t.device.agenda :=
    keeps_stepUnit (by intros; rfl) _ _ _ _ hu
  have hk' := keeps_onBoard _ _ _ _ hv
  have hpos := masterCycles_pos (stepUnit_pos hu)
    (Config.valid_iff.1 v.device.valid).2.1
  rw [checkedAdd_eq_ok_iff] at hadd
  have ht' := Op.update_eq_ok.1 ht
  have hy' := Op.update_eq_ok.1 hy
  obtain ⟨timeline, ha, hl⟩ := agenda_timePlayback h
  subst ht' hy'
  rw [hk] at hk'
  simp only [agenda, Agenda.mk.injEq] at hk' ha ⊢
  have hsame := ha.2.2.2.trans hk'.2.2.2
  refine ⟨mainTime, timeline, ⟨ha.1.trans hk'.1, ha.2.1, ha.2.2.1, hsame⟩, ?_, ?_⟩
  · rw [← hk'.2.2.1]
    omega
  · rw [← hk'.2.1]
    exact hl

/-- An event puts at most one event on the timeline, which happens later than itself. -/
theorem agenda_dispatch {time : UInt64} {event : Event} {s s' : Observed Machine}
    (h : dispatch time event s = .ok () s') :
    ∃ mainTime timeline, s'.device.agenda = { s.device.agenda with mainTime, timeline } ∧
      s.device.mainTime.toNat ≤ mainTime.toNat ∧
      ∀ target, timeline.timeLeft target ≤
        s.device.timeline.timeLeft target + (target.toNat - (time.toNat + 1)) := by
  -- Most events leave the agenda as it is; the periodic ones put themselves on it again.
  have kept {t : Observed Machine} (ht : t.device.agenda = s.device.agenda) :
      ∃ mainTime timeline, t.device.agenda = { s.device.agenda with mainTime, timeline } ∧
        s.device.mainTime.toNat ≤ mainTime.toNat ∧
        ∀ target, timeline.timeLeft target ≤
          s.device.timeline.timeLeft target + (target.toNat - (time.toNat + 1)) :=
    ⟨s.device.mainTime, s.device.timeline, ht, Nat.le_refl _, fun _ => Nat.le_add_right ..⟩
  have periodic {t : Observed Machine} {cycles : UInt64} {event : Event}
      (ht : t.device.agenda = s.device.agenda) (hc : cycles ≠ 0)
      (h : scheduleAfter time cycles event t = .ok () s') :
      ∃ mainTime timeline, s'.device.agenda = { s.device.agenda with mainTime, timeline } ∧
        s.device.mainTime.toNat ≤ mainTime.toNat ∧
        ∀ target, timeline.timeLeft target ≤
          s.device.timeline.timeLeft target + (target.toNat - (time.toNat + 1)) := by
    obtain ⟨due, timeline, hd, hs, ha⟩ := agenda_scheduleAfter h
    refine ⟨s.device.mainTime, timeline, ?_, Nat.le_refl _, fun target => ?_⟩
    · rw [ha, ht]
      rfl
    · have hp : cycles.toNat ≠ 0 := fun h => hc (UInt64.toNat_inj.1 h)
      simp only [agenda, Agenda.mk.injEq] at ht
      rw [Timeline.timeLeft_schedule hs, ht.2.1]
      omega
  cases event with
  | barcodeShift =>
    obtain ⟨_, t, ht, h⟩ := Op.bind_eq_ok.1 h
    obtain ⟨m, u, hu, h⟩ := Op.bind_eq_ok.1 h
    obtain ⟨rfl, rfl⟩ := Op.device_eq_ok.1 hu
    have ht' := Op.update_eq_ok.1 ht
    subst ht'
    exact periodic (by rfl) (Config.valid_iff.1 s.device.valid).2.2.2.2.1 h
  | displayTick =>
    obtain ⟨_, t, ht, h⟩ := Op.bind_eq_ok.1 h
    obtain ⟨m, u, hu, h⟩ := Op.bind_eq_ok.1 h
    obtain ⟨rfl, rfl⟩ := Op.device_eq_ok.1 hu
    exact periodic (keeps_onBoard _ _ _ _ ht) (Config.valid_iff.1 t.device.valid).2.2.2.2.2 h
  | cardSwipe code => exact kept (keeps_onBoard _ _ _ _ h)
  | keyChange key pressed =>
    obtain ⟨_, t, ht, h⟩ := Op.bind_eq_ok.1 h
    have h' := Op.update_eq_ok.1 h
    have hk := keeps_say _ _ _ _ _ _ ht
    subst h'
    exact kept hk
  | speechDone generation =>
    obtain ⟨ended, t, ht, h⟩ := Op.bind_eq_ok.1 h
    have hk := keeps_onBoard _ _ _ _ ht
    cases ended with
    | false =>
      have h' := (Op.pure_eq_ok.1 h).2
      subst h'
      exact kept hk
    | true =>
      rw [if_pos rfl] at h
      have h' := Op.update_eq_ok.1 h
      subst h'
      simp only [agenda, Agenda.mk.injEq] at hk ⊢
      -- The end of a stall moves the main unit on to the time of the completion.
      refine ⟨_, _, ⟨hk.1, rfl, rfl, hk.2.2.2⟩, ?_, fun target => ?_⟩
      · rw [hk.2.2.1]
        rw [toNat_max]
        exact Nat.le_max_left ..
      · rw [hk.2.1]
        exact Nat.le_add_right ..

/-! ## Every turn leaves less to do -/

/-- The turn of an event takes it off the timeline and puts at most one on it, which happens later.
-/
theorem agenda_takeEvent {s s' : Observed Machine} {e : Entry} {rest : Timeline}
    (hp : s.device.timeline.pop? = some (e, rest)) (h : takeEvent s = .ok () s') :
    ∃ mainTime timeline, s'.device.agenda = { s.device.agenda with mainTime, timeline } ∧
      s.device.mainTime.toNat ≤ mainTime.toNat ∧
      ∀ target, timeline.timeLeft target ≤
        rest.timeLeft target + (target.toNat - (e.time.toNat + 1)) := by
  unfold takeEvent at h
  obtain ⟨m, t, ht, h⟩ := Op.bind_eq_ok.1 h
  obtain ⟨rfl, rfl⟩ := Op.device_eq_ok.1 ht
  simp only [hp] at h
  obtain ⟨_, u, hu, h⟩ := Op.bind_eq_ok.1 h
  have hu' := Op.update_eq_ok.1 hu
  subst hu'
  obtain ⟨mainTime, timeline, ha, hm, hl⟩ := agenda_dispatch h
  exact ⟨mainTime, timeline, ha, hm, hl⟩

/-- Every turn before a time leaves less to do before that time. -/
theorem work_take_lt {target : UInt64} {turn : Turn} {s s' : Observed Machine}
    (ht : s.device.turn? target = some turn) (h : take turn s = .ok () s') :
    s'.device.agenda.work target < s.device.agenda.work target := by
  cases turn with
  | event =>
    obtain ⟨e, rest, hp, he⟩ := turn?_eq_event ht
    obtain ⟨mainTime, timeline, ha, hm, hl⟩ := agenda_takeEvent hp h
    have hl := hl target
    -- The main unit may have moved on, which leaves it no more steps.
    have hmul : (target.toNat - mainTime.toNat) * (target.toNat + 1) ≤
        (target.toNat - s.device.mainTime.toNat) * (target.toNat + 1) :=
      Nat.mul_le_mul_right _ (by omega)
    rw [ha]
    simp only [Agenda.work, agenda, Timeline.timeLeft_pop hp]
    omega
  | mcu =>
    have hlt := turn?_eq_mcu ht
    obtain ⟨mcuTime, ha, hm⟩ := agenda_takeMcu h
    rw [ha]
    simp only [Agenda.work, agenda]
    omega
  | main =>
    have hlt := (turn?_eq_main ht).2
    obtain ⟨mainTime, timeline, ha, hm, hl⟩ := agenda_takeMain h
    have hl := hl target
    -- A step of the main unit pays for the one event that it can put on the timeline.
    have hmul : (target.toNat - mainTime.toNat + 1) * (target.toNat + 1) ≤
        (target.toNat - s.device.mainTime.toNat) * (target.toNat + 1) :=
      Nat.mul_le_mul_right _ (by omega)
    rw [Nat.add_mul, Nat.one_mul] at hmul
    rw [ha]
    simp only [Agenda.work, agenda]
    omega

end CardComputer.Machine
