import CardComputer.Proofs.Machine.Run

/-!
# Catching up

A machine has caught up with a time if nothing is to be done before it: no event is pending for an
earlier time, and neither processor has a step to make then, a stalled one aside. This is exactly
what it means that there is no turn (`Machine.turn?_eq_none`). The time of a turn is one with which
the machine has caught up (`Machine.caughtUp_turnTime`), what the turn leaves to do is not earlier
(`Machine.Effect.timing`), and so turns undo nothing of it (`Machine.CaughtUp.effect`).
-/

namespace CardComputer

open Op

/-- Nothing is pending before a time that the next event does not precede. -/
theorem Timeline.le_time_of_le_head {t rest : Timeline} {e x : Entry} {time : UInt64}
    (h : t.pop? = some (e, rest)) (he : time ≤ e.time) (hx : x ∈ t.entries) : time ≤ x.time := by
  have hsorted := t.sorted
  rw [(pop?_eq_some.1 h).1] at hx hsorted
  rcases List.mem_cons.1 hx with rfl | hx
  · exact he
  · have hnot := (List.pairwise_cons.1 hsorted).1 x hx
    rw [← Bool.not_eq_true, Entry.before_iff] at hnot
    rw [UInt64.le_iff_toNat_le] at he ⊢
    omega

namespace Machine

/-- Nothing is to be done before a time. -/
structure CaughtUp (time : UInt64) (m : Machine) : Prop where
  /-- No event is pending for an earlier time. -/
  events : ∀ e ∈ m.timeline.entries, time ≤ e.time
  /-- The coprocessor does not step earlier. -/
  mcu : time ≤ m.mcuTime
  /-- The main unit does not step earlier, unless it is stalled. -/
  main : m.isStalled = false → time ≤ m.mainTime

/-- The next event is not before a time exactly if no event is. -/
theorem le_eventDue_iff {m : Machine} {time : UInt64} :
    time ≤ m.eventDue ↔ ∀ e ∈ m.timeline.entries, time ≤ e.time := by
  cases hp : m.timeline.pop? with
  | none =>
    have hnil := Timeline.pop?_eq_none_iff.1 hp
    -- Without events the next one is due at the greatest time there is.
    have hlt := time.toNat_lt
    simp [eventDue, Timeline.pop?_eq_none hp, hnil, UInt64.le_iff_toNat_le, never]
    omega
  | some popped =>
    obtain ⟨e, rest⟩ := popped
    have hdue : m.eventDue = e.time := by simp [eventDue, Timeline.pop?_time hp]
    rw [hdue]
    constructor
    · intro he x hx
      exact Timeline.le_time_of_le_head hp he hx
    · intro h
      exact h e (Timeline.mem_of_pop hp)

/-- The main unit is not due before a time exactly if it does not step earlier or is stalled. -/
theorem le_mainDue_iff {m : Machine} {time : UInt64} :
    time ≤ m.mainDue ↔ (m.isStalled = false → time ≤ m.mainTime) := by
  have hlt := time.toNat_lt
  unfold mainDue
  cases hs : m.isStalled with
  | false => simp
  | true =>
    -- A stalled main unit is due at the greatest time there is.
    simp [UInt64.le_iff_toNat_le, never]
    omega

/-- There is no turn before a time exactly if the machine has caught up with it. -/
theorem turn?_eq_none {m : Machine} {time : UInt64} : m.turn? time = none ↔ m.CaughtUp time := by
  -- The least of the three times decides.
  have hmin : time ≤ min m.unitDue m.eventDue ↔
      (time ≤ m.mainDue ∧ time ≤ m.mcuTime) ∧ time ≤ m.eventDue := by
    simp only [UInt64.le_iff_toNat_le, unitDue, toNat_min]
    omega
  have hnone : m.turn? time = none ↔ time ≤ min m.unitDue m.eventDue := by
    unfold turn?
    split
    · simp_all
    · rename_i hlt
      simp only [hlt, iff_false]
      split
      · simp
      · split <;> simp
  rw [hnone, hmin, le_mainDue_iff, le_eventDue_iff]
  constructor
  · rintro ⟨⟨main, mcu⟩, events⟩
    exact ⟨events, mcu, main⟩
  · rintro ⟨events, mcu, main⟩
    exact ⟨⟨main, mcu⟩, events⟩

/-! ## The time of a turn -/

/-- When a turn is taken: at the time of the next event, or when the processor steps next. -/
def turnTime (m : Machine) : Turn → UInt64
  | .event => m.eventDue
  | .mcu => m.mcuTime
  | .main => m.mainTime

/-- Whoever has the turn is furthest behind, before the target. -/
structure Due (m : Machine) (target : UInt64) (turn : Turn) : Prop where
  target : m.turnTime turn < target
  event : m.turnTime turn ≤ m.eventDue
  mcu : m.turnTime turn ≤ m.mcuTime
  main : m.turnTime turn ≤ m.mainDue
  /-- A processor has the turn only if the next event is later. -/
  event_later : turn ≠ .event → m.turnTime turn < m.eventDue
  /-- The main unit has the turn only if the coprocessor is later. -/
  mcu_later : turn = .main → m.turnTime turn < m.mcuTime

theorem mainDue_eq {m : Machine} (hs : m.isStalled = false) : m.mainDue = m.mainTime := by
  unfold mainDue
  rw [hs, if_neg Bool.false_ne_true]

/-- Whoever has the turn is due. -/
theorem due_of_turn? {m : Machine} {target : UInt64} {turn : Turn}
    (ht : m.turn? target = some turn) : m.Due target turn := by
  have hmain : turn = .main → m.mainDue.toNat = m.mainTime.toNat := by
    rintro rfl
    rw [mainDue_eq (turn?_eq_main ht).1]
  -- The cases of a turn compare the three times with each other.
  unfold turn? unitDue at ht
  simp only [UInt64.le_iff_toNat_le, toNat_min] at ht
  split at ht
  · cases ht
  · split at ht
    · obtain rfl := Option.some.inj ht
      refine ⟨?_, ?_, ?_, ?_, fun h => absurd rfl h, nofun⟩ <;>
        simp only [turnTime, UInt64.lt_iff_toNat_lt, UInt64.le_iff_toNat_le] <;> omega
    · split at ht
      · obtain rfl := Option.some.inj ht
        refine ⟨?_, ?_, ?_, ?_, fun _ => ?_, nofun⟩ <;>
          simp only [turnTime, UInt64.lt_iff_toNat_lt, UInt64.le_iff_toNat_le] <;> omega
      · obtain rfl := Option.some.inj ht
        have hdue := hmain rfl
        refine ⟨?_, ?_, ?_, ?_, fun _ => ?_, fun _ => ?_⟩ <;>
          simp only [turnTime, UInt64.lt_iff_toNat_lt, UInt64.le_iff_toNat_le] <;> omega

/-- The machine has caught up with the time of its turn. -/
theorem caughtUp_turnTime {m : Machine} {target : UInt64} {turn : Turn}
    (ht : m.turn? target = some turn) : m.CaughtUp (m.turnTime turn) := by
  have due := due_of_turn? ht
  exact ⟨le_eventDue_iff.1 due.event, due.mcu, le_mainDue_iff.1 due.main⟩

theorem turnTime_event {m : Machine} {e : Entry} {rest : Timeline}
    (next : m.timeline.pop? = some (e, rest)) : m.turnTime .event = e.time := by
  simp [turnTime, eventDue, Timeline.pop?_time next]

/-- A turn is not taken before a time with which the machine has caught up. -/
theorem CaughtUp.le_turnTime {time target : UInt64} {m : Machine} {turn : Turn}
    (h : m.CaughtUp time) (ht : m.turn? target = some turn) : time ≤ m.turnTime turn := by
  cases turn with
  | event => exact le_eventDue_iff.2 h.events
  | mcu => exact h.mcu
  | main => exact h.main (turn?_eq_main ht).1

/-! ## The timing of turns -/

/-- The entries that a turn leaves on the timeline. -/
def remaining (m : Machine) : Turn → List Entry
  | .event => m.timeline.entries.tail
  | _ => m.timeline.entries

/-- An event leaves the entries after it. -/
theorem remaining_event {m : Machine} {e : Entry} {rest : Timeline}
    (next : m.timeline.pop? = some (e, rest)) : m.remaining .event = rest.entries := by
  show m.timeline.entries.tail = rest.entries
  rw [(Timeline.pop?_eq_some.1 next).1]
  rfl

/-- What a turn leaves on the timeline was there before. -/
theorem mem_of_mem_remaining {m : Machine} {turn : Turn} {e : Entry} (h : e ∈ m.remaining turn) :
    e ∈ m.timeline.entries := by
  cases turn with
  | event => exact List.mem_of_mem_tail h
  | mcu => exact h
  | main => exact h

/-- What a turn changes about what is to be done when. -/
structure Timing (m : Machine) (turn : Turn) (m' : Machine) : Prop where
  /-- New events are for later times. -/
  events : ∀ e ∈ m'.timeline.entries, e ∈ m.remaining turn ∨ m.turnTime turn < e.time
  /-- The coprocessor does not go back. -/
  mcu : m.mcuTime ≤ m'.mcuTime
  /-- It goes on if it has the turn. -/
  mcu_turn : turn = .mcu → m.mcuTime < m'.mcuTime
  /-- The main unit does not go back. -/
  main : m.mainTime ≤ m'.mainTime
  /-- It goes on if it has the turn. -/
  main_turn : turn = .main → m.mainTime < m'.mainTime
  /-- It is released by an event, and not behind it. -/
  release : m.isStalled = true → m'.isStalled = false →
    turn = .event ∧ m.turnTime turn ≤ m'.mainTime
  /-- The clock shows the time of the turn. -/
  now : m'.now = m.turnTime turn

/-- A sum of times, as a number. -/
theorem toNat_addTime (a b : UInt64) :
    (addTime a b).toNat = min (a.toNat + b.toNat) never.toNat := by
  rw [addTime, UInt64.toNat_ofNat_of_lt']
  -- The sum that was cut off fits.
  have hnever : never.toNat = 2 ^ 64 - 1 := rfl
  unfold UInt64.size
  omega

/-- A sum of times is not before the first. -/
theorem le_addTime (a b : UInt64) : a ≤ addTime a b := by
  have ha := a.toNat_lt
  have hnever : never.toNat = 2 ^ 64 - 1 := rfl
  rw [UInt64.le_iff_toNat_le, toNat_addTime, hnever]
  omega

/-- A step of a processor ends later than it began. -/
theorem lt_of_step {bus : Bus Board} {p p' : Processor} {b b' : Board} {cycles divider : UInt32}
    {time time' : UInt64} (step : p.Step bus b p' b' cycles) (hd : divider ≠ 0)
    (later : time'.toNat = time.toNat + (masterCycles cycles divider).toNat) : time < time' := by
  have hpos := masterCycles_pos step.one_le_cycles hd
  rw [UInt64.lt_iff_toNat_lt]
  omega

/-- A word that is timed is finished after the step that spoke it, in the stall that it began. -/
theorem Times.mem_entries {m : Machine} {b : Board} {mainTime : UInt64} {timeline : Timeline}
    {timed : List UInt8} (h : m.Times b mainTime timeline timed) :
    ∀ e ∈ timeline.entries, e ∈ m.timeline.entries ∨
      (mainTime ≤ e.time ∧ e.seq = m.timeline.nextSeq ∧
        e.event = .speechDone b.stall.generation) := by
  unfold Times at h
  split at h
  · intro e he
    rcases (Timeline.mem_schedule h.1).1 he with rfl | he
    · exact Or.inr ⟨le_addTime _ _, rfl, rfl⟩
    · exact Or.inl he
  · rw [h.1]
    exact fun e he => Or.inl he

/-- The timing of an event that leaves the times of the processors as they are. -/
theorem timing_of_event {m m' : Machine} {e : Entry} {rest : Timeline}
    (next : m.timeline.pop? = some (e, rest))
    (events : ∀ x ∈ m'.timeline.entries, x ∈ rest.entries ∨ e.time < x.time)
    (mcu : m'.mcuTime = m.mcuTime) (main : m'.mainTime = m.mainTime)
    (stall : m'.isStalled = m.isStalled) (now : m'.now = e.time) : Timing m .event m' := by
  refine ⟨?_, ?_, nofun, ?_, nofun, fun hs hs' => ?_, ?_⟩
  · rw [remaining_event next, turnTime_event next]
    exact events
  · exact UInt64.le_of_eq mcu.symm
  · exact UInt64.le_of_eq main.symm
  · rw [stall, hs] at hs'
    cases hs'
  · rw [now, turnTime_event next]

/-- A periodic event is scheduled for a later time. -/
theorem mem_or_lt_of_periodic {e : Entry} {rest timeline : Timeline}
    {due cycles : UInt64} {event : Event} (hpos : cycles ≠ 0)
    (period : due.toNat = e.time.toNat + cycles.toNat)
    (scheduled : rest.schedule due event = .ok timeline) :
    ∀ x ∈ timeline.entries, x ∈ rest.entries ∨ e.time < x.time := by
  intro x hx
  rcases (Timeline.mem_schedule scheduled).1 hx with rfl | hx
  · have hne : cycles.toNat ≠ 0 := fun h => hpos (UInt64.toNat_inj.1 h)
    right
    show e.time < due
    rw [UInt64.lt_iff_toNat_lt]
    omega
  · exact Or.inl hx

/-- The effects of turns have their timing. -/
theorem Effect.timing {m m' : Machine} {turn : Turn} (he : Effect m turn m') :
    Timing m turn m' := by
  have hvalid := Config.valid_iff.1 m.valid
  cases he with
  | shift next kind period scheduled =>
    exact timing_of_event next (mem_or_lt_of_periodic hvalid.2.2.2.2.1 period scheduled)
      rfl rfl rfl rfl
  | tick next kind counted period scheduled =>
    exact timing_of_event next (mem_or_lt_of_periodic hvalid.2.2.2.2.2 period scheduled)
      rfl rfl rfl rfl
  | swipe next kind => exact timing_of_event next (fun _ hx => Or.inl hx) rfl rfl rfl rfl
  | key next kind => exact timing_of_event next (fun _ hx => Or.inl hx) rfl rfl rfl rfl
  | spurious next kind other => exact timing_of_event next (fun _ hx => Or.inl hx) rfl rfl rfl rfl
  | @release e rest stalls next kind stalled counted =>
    refine ⟨fun x hx => Or.inl ((remaining_event next).symm ▸ hx), UInt64.le_refl _, nofun, ?_,
      nofun, fun _ _ => ⟨rfl, ?_⟩, (turnTime_event next).symm⟩
    · rw [UInt64.le_iff_toNat_le, toNat_max]
      exact Nat.le_max_left _ _
    · rw [turnTime_event next, UInt64.le_iff_toNat_le, toNat_max]
      exact Nat.le_max_right _ _
  | mcu step later =>
    have hlt := lt_of_step step hvalid.2.2.1 later
    -- The coprocessor does not reach the stall control, so it ends no stall.
    have hstall := congrArg (StallControl.isStalled ∘ Board.Remote.stall) step.remote_eq
    refine ⟨fun e he => Or.inl he, UInt64.le_of_lt hlt, fun _ => hlt, UInt64.le_refl _, nofun,
      fun hs hs' => ?_, rfl⟩
    exact absurd (hs'.symm.trans (hstall.trans hs)) Bool.false_ne_true
  | main step counted later times =>
    have hlt := lt_of_step step hvalid.2.1 later
    refine ⟨fun e he => ?_, UInt64.le_refl _, nofun, UInt64.le_of_lt hlt, fun _ => hlt,
      fun hs hs' => ?_, rfl⟩
    · exact (times.mem_entries e he).imp_right fun hnew => UInt64.lt_of_lt_of_le hlt hnew.1
    · have hstall := congrArg StallControl.isStalled (step.stall_of_stalled hs)
      exact absurd (hs'.symm.trans (hstall.trans hs)) Bool.false_ne_true

/-- What turns do is done after every time with which the machine had caught up. -/
theorem CaughtUp.effect {time target : UInt64} {m m' : Machine} {turn : Turn}
    (h : m.CaughtUp time) (ht : m.turn? target = some turn) (he : Effect m turn m') :
    m'.CaughtUp time := by
  -- The turn is not taken before `time`, and what it adds is not before the turn.
  have hle := h.le_turnTime ht
  have timing := he.timing
  refine ⟨fun e hmem => ?_, UInt64.le_trans h.mcu timing.mcu, fun hs' => ?_⟩
  · rcases timing.events e hmem with hold | hnew
    · exact h.events e (mem_of_mem_remaining hold)
    · exact UInt64.le_trans hle (UInt64.le_of_lt hnew)
  · cases hs : m.isStalled with
    | false => exact UInt64.le_trans (h.main hs) timing.main
    | true => exact UInt64.le_trans hle (timing.release hs hs').2

/-! ## Runs -/

/-- A run leaves nothing to do before its target. -/
theorem caughtUp_of_turns {target : UInt64} {s s' : Observed Machine}
    (h : turns target s = .ok () s') : s'.device.CaughtUp target :=
  turn?_eq_none.1 (turns_invariant (fun _ _ _ _ _ _ => trivial) (P := fun _ => True) trivial h).2

end Machine

end CardComputer
