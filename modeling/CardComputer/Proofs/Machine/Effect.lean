import CardComputer.Machine.Agenda
import CardComputer.Proofs.Board.Access

/-!
# What a turn does

`Machine.Effect` lists everything that a turn can do to a machine, one constructor for each kind of
event, for an event that a stall does not heed, and for each processor. A turn that succeeds has one
of these effects (`Machine.effect_of_take`); what turns keep is read off the list.
-/

namespace CardComputer

open Op

/-- The steps of a processor on a bus: the processor and the board after one, and its cycles. -/
inductive Processor.Step (bus : Bus Board) (p : Processor) (b : Board) :
    Processor → Board → UInt32 → Prop
  /-- A step without an instruction. -/
  | idle {p' : Processor} (fetch : p.fetch = (none, p')) : Step bus p b p' b Processor.idleCycles
  /-- A step that carries out an instruction. -/
  | access {p' : Processor} {i : Instruction} {log : Log} {read : Option UInt8}
      {s' : Observed Board} (fetch : p.fetch = (some i, p'))
      (performed : i.access.perform bus ⟨b, log⟩ = .ok read s') :
      Step bus p b (p'.retire read) s'.device (max i.cycles 1)

/-- A step takes at least one cycle. -/
theorem Processor.Step.one_le_cycles {bus : Bus Board} {p p' : Processor} {b b' : Board}
    {cycles : UInt32} (h : p.Step bus b p' b' cycles) : 1 ≤ cycles.toNat := by
  cases h with
  | idle => decide
  | access => exact Machine.one_le_max_one _

/-- A step of the coprocessor keeps what it cannot reach. -/
theorem Processor.Step.remote_eq {p p' : Processor} {b b' : Board} {cycles : UInt32}
    (h : p.Step Board.mcuBus b p' b' cycles) : b'.remote = b.remote := by
  cases h with
  | idle => rfl
  | access _ performed => exact Board.keeps_perform_mcuBus _ _ _ _ performed

/-- The word that the next step of the main unit gives to the speech unit. -/
def Processor.word? (p : Processor) (b : Board) : Option UInt8 :=
  p.fetch.1.bind fun i => i.access.word? b

/-- A step of the main unit changes at most the mailbox, drops its word during a stall, or begins a
stall with it. -/
theorem Processor.Step.main_cases {p p' : Processor} {b b' : Board} {cycles : UInt32}
    (h : p.Step Board.mainBus b p' b' cycles) :
    (p.word? b = none ∧ ∃ mailbox, b' = { b with mailbox }) ∨
    ∃ word, p.word? b = some word ∧
      ((b.stall.state = .stalled ∧ b' = b) ∨
      (b.stall.state = .running ∧ ∃ generation,
        generation.toNat = b.stall.generation.toNat + 1 ∧
        b' = { b with stall := b.stall.begun generation, playback := some word })) := by
  cases h with
  | idle fetch => exact Or.inl ⟨by simp [Processor.word?, fetch], b.mailbox, rfl⟩
  | @access p' i log read s' fetch performed =>
    have hword : p.word? b = i.access.word? b := by simp [Processor.word?, fetch]
    rcases Board.perform_mainBus performed with ⟨hnone, hb⟩ | ⟨word, hsome, hb⟩
    · exact Or.inl ⟨hword.trans hnone, _, hb⟩
    · exact Or.inr ⟨word, hword.trans hsome, hb⟩

/-- A step of the main unit leaves all but the mailbox, the stall control and the word for the
speech unit as it is. -/
theorem Processor.Step.main_frame {p p' : Processor} {b b' : Board} {cycles : UInt32}
    (h : p.Step Board.mainBus b p' b' cycles) :
    ∃ mailbox stall playback, b' = { b with mailbox, stall, playback } := by
  rcases h.main_cases with ⟨-, mailbox, rfl⟩ | ⟨word, -, ⟨-, rfl⟩ | ⟨-, generation, -, rfl⟩⟩
  · exact ⟨mailbox, b.stall, b.playback, rfl⟩
  · exact ⟨b'.mailbox, b'.stall, b'.playback, rfl⟩
  · exact ⟨b.mailbox, b.stall.begun generation, some word, rfl⟩

/-- A step of the main unit during a stall leaves the stall as it is. -/
theorem Processor.Step.stall_of_stalled {p p' : Processor} {b b' : Board} {cycles : UInt32}
    (h : p.Step Board.mainBus b p' b' cycles) (hs : b.stall.isStalled = true) :
    b'.stall = b.stall := by
  rcases h.main_cases with ⟨-, mailbox, rfl⟩ | ⟨word, -, ⟨-, rfl⟩ | ⟨hrunning, -⟩⟩
  · rfl
  · rfl
  · rw [StallControl.isStalled, hrunning] at hs
    cases hs

/-- The stall control after its stall ended. -/
def StallControl.ended (c : StallControl) (stalls : UInt64) : StallControl :=
  { c with state := .running, owner := none, stalls }

namespace Machine

/-- The timeline and the timed words after a step of the main unit that left the board `b` and is
followed by one at `mainTime`: a word that waits is timed if there is a timer. -/
def Times (m : Machine) (b : Board) (mainTime : UInt64) (timeline : Timeline)
    (timed : List UInt8) : Prop :=
  match b.playback, m.timer with
  | some word, some timer =>
    m.timeline.schedule (addTime mainTime (m.config.usToCycles (timer.duration m.timed word)))
      (.speechDone b.stall.generation) = .ok timeline ∧ timed = word :: m.timed
  | _, _ => timeline = m.timeline ∧ timed = m.timed

/-- The effects of a turn on a machine. -/
inductive Effect (m : Machine) : Turn → Machine → Prop
  /-- A half-bit passes the sensor, and the next one is scheduled. -/
  | shift {e : Entry} {rest timeline : Timeline} {due : UInt64}
      (next : m.timeline.pop? = some (e, rest)) (kind : e.event = .barcodeShift)
      (period : due.toNat = e.time.toNat + m.config.barcodeShiftCycles.toNat)
      (scheduled : rest.schedule due .barcodeShift = .ok timeline) :
      Effect m .event { m with
        now := e.time, timeline
        board := { m.board with scanner := m.board.scanner.tick } }
  /-- The display counts a tick, and the next one is scheduled. -/
  | tick {e : Entry} {rest timeline : Timeline} {due ticks : UInt64}
      (next : m.timeline.pop? = some (e, rest)) (kind : e.event = .displayTick)
      (counted : ticks.toNat = m.board.display.now.toNat + 1)
      (period : due.toNat = e.time.toNat + m.config.displayTickCycles.toNat)
      (scheduled : rest.schedule due .displayTick = .ok timeline) :
      Effect m .event { m with
        now := e.time, timeline
        board := { m.board with display := { m.board.display with now := ticks } } }
  | swipe {e : Entry} {rest : Timeline} {code : CardCode}
      (next : m.timeline.pop? = some (e, rest)) (kind : e.event = .cardSwipe code) :
      Effect m .event { m with
        now := e.time, timeline := rest
        board := { m.board with scanner := .loaded code } }
  | key {e : Entry} {rest : Timeline} {k : Key} {pressed : Bool}
      (next : m.timeline.pop? = some (e, rest)) (kind : e.event = .keyChange k pressed) :
      Effect m .event { m with
        now := e.time, timeline := rest, board := m.board.setKey k pressed }
  /-- The current stall ends. -/
  | release {e : Entry} {rest : Timeline} {stalls : UInt64}
      (next : m.timeline.pop? = some (e, rest))
      (kind : e.event = .speechDone m.board.stall.generation) (stalled : m.isStalled = true)
      (counted : stalls.toNat = m.board.stall.stalls.toNat + 1) :
      Effect m .event { m with
        now := e.time, timeline := rest, mainTime := max m.mainTime e.time
        board := { m.board with stall := m.board.stall.ended stalls } }
  /-- A completion is not that of the current stall. -/
  | spurious {e : Entry} {rest : Timeline} {generation : UInt64}
      (next : m.timeline.pop? = some (e, rest)) (kind : e.event = .speechDone generation)
      (other : m.isStalled = true → generation ≠ m.board.stall.generation) :
      Effect m .event { m with now := e.time, timeline := rest }
  | mcu {mcu : Processor} {board : Board} {cycles : UInt32} {mcuTime : UInt64}
      (step : m.mcu.Step Board.mcuBus (m.board.setTime m.mcuTime) mcu board cycles)
      (later : mcuTime.toNat = m.mcuTime.toNat + (masterCycles cycles m.config.mcuDivider).toNat) :
      Effect m .mcu { m with now := m.mcuTime, mcu, board, mcuTime }
  | main {main : Processor} {board : Board} {cycles : UInt32} {gatedCycles mainTime : UInt64}
      {timeline : Timeline} {timed : List UInt8}
      (step : m.main.Step Board.mainBus (m.board.setTime m.mainTime) main board cycles)
      (counted : gatedCycles.toNat = board.stall.gatedCycles.toNat +
        if board.stall.isStalled then 0 else cycles.toNat)
      (later : mainTime.toNat =
        m.mainTime.toNat + (masterCycles cycles m.config.mainDivider).toNat)
      (times : m.Times board mainTime timeline timed) :
      Effect m .main { m with
        now := m.mainTime, main, mainTime, timeline, timed
        board := { board with stall := { board.stall with gatedCycles }, playback := none } }

theorem Effect.config_eq {m m' : Machine} {turn : Turn} (h : Effect m turn m') :
    m'.config = m.config := by
  cases h <;> rfl

/-! ## The parts of a turn -/

/-- A step of a unit is a step of its processor on the board. -/
theorem step_of_stepUnit {get : Machine → Processor} {set : Processor → Machine → Machine}
    {bus : Bus Board} {s s' : Observed Machine} {cycles : UInt32}
    (h : stepUnit get set bus s = .ok cycles s') (hget : ∀ p m, get (set p m) = p)
    (hset : ∀ p p' m, set p (set p' m) = set p m) (hboard : ∀ p m, (set p m).board = m.board)
    (hcomm : ∀ p m b, { set p m with board := b } = set p { m with board := b }) :
    ∃ p b, (get s.device).Step bus s.device.board p b cycles ∧
      s'.device = set p { s.device with board := b } := by
  obtain ⟨m, t, ht, h⟩ := bind_eq_ok.1 h
  obtain ⟨rfl, rfl⟩ := device_eq_ok.1 ht
  -- The processor idles or has an instruction to carry out.
  rcases hf : (get s.device).fetch with ⟨_ | i, p⟩
  · simp only [hf] at h
    obtain ⟨_, u, hu, h⟩ := bind_eq_ok.1 h
    obtain ⟨rfl, rfl⟩ := pure_eq_ok.1 h
    obtain rfl := update_eq_ok.1 hu
    exact ⟨p, s.device.board, .idle hf, rfl⟩
  · simp only [hf] at h
    obtain ⟨_, u, hu, h⟩ := bind_eq_ok.1 h
    obtain ⟨read, v, hv, h⟩ := bind_eq_ok.1 h
    obtain ⟨_, w, hw, h⟩ := bind_eq_ok.1 h
    obtain ⟨rfl, rfl⟩ := pure_eq_ok.1 h
    obtain rfl := update_eq_ok.1 hu
    obtain ⟨x, hx, rfl⟩ := within_eq_ok.1 hv
    obtain rfl := update_eq_ok.1 hw
    rw [hboard] at hx
    refine ⟨p.retire read, x.device, .access hf hx, ?_⟩
    simp only [hcomm, hget, hset]

/-- A successful schedule. -/
theorem schedule_eq_ok {time : UInt64} {event : Event} {s s' : Observed Machine}
    (h : schedule time event s = .ok () s') :
    ∃ timeline, s.device.timeline.schedule time event = .ok timeline ∧
      s'.device = { s.device with timeline } := by
  obtain ⟨m, t, ht, h⟩ := bind_eq_ok.1 h
  obtain ⟨timeline, u, hu, h⟩ := bind_eq_ok.1 h
  obtain ⟨rfl, rfl⟩ := device_eq_ok.1 ht
  obtain ⟨hs, rfl⟩ := check_eq_ok.1 hu
  obtain rfl := update_eq_ok.1 h
  exact ⟨timeline, hs, rfl⟩

/-- A successful schedule some cycles later. -/
theorem scheduleAfter_eq_ok {time cycles : UInt64} {event : Event} {s s' : Observed Machine}
    (h : scheduleAfter time cycles event s = .ok () s') :
    ∃ due timeline, due.toNat = time.toNat + cycles.toNat ∧
      s.device.timeline.schedule due event = .ok timeline ∧
      s'.device = { s.device with timeline } := by
  obtain ⟨due, t, ht, h⟩ := bind_eq_ok.1 h
  obtain ⟨hd, rfl⟩ := check_eq_ok.1 ht
  obtain ⟨timeline, hs, ha⟩ := schedule_eq_ok h
  exact ⟨due, timeline, checkedAdd_eq_ok_iff.1 hd, hs, ha⟩

/-- A word that waits is taken from the board and timed. -/
theorem times_of_timePlayback {s s' : Observed Machine} (h : timePlayback s = .ok () s') :
    ∃ timeline timed, s.device.Times s.device.board s.device.mainTime timeline timed ∧
      s'.device = { s.device with
        timeline, timed, board := { s.device.board with playback := none } } := by
  obtain ⟨word, t, ht, h⟩ := bind_eq_ok.1 h
  obtain ⟨x, hx, rfl⟩ := within_eq_ok.1 ht
  obtain ⟨rfl, rfl⟩ := change_eq_ok.1 hx
  simp only [Board.takePlayback] at h
  -- Nothing is timed without a word, or without a timer to say how long it takes.
  cases hw : s.device.board.playback with
  | none =>
    simp only [hw] at h
    obtain ⟨-, rfl⟩ := pure_eq_ok.1 h
    exact ⟨s.device.timeline, s.device.timed, by simp [Times, hw], rfl⟩
  | some word =>
    simp only [hw] at h
    obtain ⟨m, u, hu, h⟩ := bind_eq_ok.1 h
    obtain ⟨rfl, rfl⟩ := device_eq_ok.1 hu
    cases htimer : s.device.timer with
    | none =>
      simp only [htimer] at h
      obtain ⟨-, rfl⟩ := pure_eq_ok.1 h
      exact ⟨s.device.timeline, s.device.timed, by simp [Times, hw, htimer], by simp only [htimer]⟩
    | some timer =>
      simp only [htimer] at h
      obtain ⟨_, v, hv, h⟩ := bind_eq_ok.1 h
      obtain rfl := update_eq_ok.1 hv
      obtain ⟨timeline, hs, ha⟩ := schedule_eq_ok h
      refine ⟨timeline, word :: s.device.timed, ?_, ha.trans (by simp only [htimer])⟩
      simpa [Times, hw, htimer] using hs

end Machine

/-- A stall is ended by its own completion and by no other. -/
theorem StallControl.complete_eq_ok {generation : UInt64} {s s' : Observed StallControl}
    {ended : Bool} (h : StallControl.complete generation s = .ok ended s') :
    (ended = true ∧ s.device.isStalled = true ∧ generation = s.device.generation ∧
      ∃ stalls, stalls.toNat = s.device.stalls.toNat + 1 ∧ s'.device = s.device.ended stalls) ∨
    (ended = false ∧ (s.device.isStalled = true → generation ≠ s.device.generation) ∧
      s'.device = s.device) := by
  obtain ⟨c, t, ht, h⟩ := bind_eq_ok.1 h
  obtain ⟨rfl, rfl⟩ := device_eq_ok.1 ht
  split at h
  · rename_i hc
    rw [Bool.and_eq_true, beq_iff_eq] at hc
    obtain ⟨_, u, hu, h⟩ := bind_eq_ok.1 h
    obtain ⟨_, v, hv, h⟩ := bind_eq_ok.1 h
    obtain ⟨stalls, w, hw, h⟩ := bind_eq_ok.1 h
    obtain ⟨_, x, hx, h⟩ := bind_eq_ok.1 h
    -- The message leaves the stall control as it is.
    have hlog := device_of_say hu
    obtain rfl := update_eq_ok.1 hv
    obtain ⟨hadd, rfl⟩ := check_eq_ok.1 hw
    obtain rfl := update_eq_ok.1 hx
    obtain ⟨rfl, rfl⟩ := pure_eq_ok.1 h
    refine Or.inl ⟨rfl, hc.1, hc.2, stalls, checkedAdd_eq_ok_iff.1 hadd, ?_⟩
    simp only [hlog, StallControl.ended]
  · rename_i hc
    rw [Bool.and_eq_true, beq_iff_eq, not_and] at hc
    obtain ⟨_, u, hu, h⟩ := bind_eq_ok.1 h
    obtain ⟨rfl, rfl⟩ := pure_eq_ok.1 h
    exact Or.inr ⟨rfl, hc, device_of_say hu⟩

/-- Cycles of the main unit are counted unless it is stalled. -/
theorem StallControl.advance_eq_ok {cycles : UInt32} {s s' : Observed StallControl}
    {counted : Bool} (h : StallControl.advance cycles s = .ok counted s') :
    ∃ gatedCycles, gatedCycles.toNat = s.device.gatedCycles.toNat +
        (if s.device.isStalled then 0 else cycles.toNat) ∧
      s'.device = { s.device with gatedCycles } := by
  obtain ⟨c, t, ht, h⟩ := bind_eq_ok.1 h
  obtain ⟨rfl, rfl⟩ := device_eq_ok.1 ht
  split at h
  · rename_i hc
    obtain ⟨-, rfl⟩ := pure_eq_ok.1 h
    exact ⟨s.device.gatedCycles, by simp [hc], rfl⟩
  · rename_i hc
    obtain ⟨gatedCycles, u, hu, h⟩ := bind_eq_ok.1 h
    obtain ⟨_, v, hv, h⟩ := bind_eq_ok.1 h
    obtain ⟨hadd, rfl⟩ := check_eq_ok.1 hu
    obtain rfl := update_eq_ok.1 hv
    obtain ⟨-, rfl⟩ := pure_eq_ok.1 h
    refine ⟨gatedCycles, ?_, rfl⟩
    rw [if_neg hc, checkedAdd_eq_ok_iff.1 hadd, UInt32.toNat_toUInt64]

/-- A display tick counts. -/
theorem Display.tick_eq_ok {s s' : Observed Display} (h : Display.tick s = .ok () s') :
    ∃ now, now.toNat = s.device.now.toNat + 1 ∧ s'.device = { s.device with now } := by
  obtain ⟨d, t, ht, h⟩ := bind_eq_ok.1 h
  obtain ⟨now, u, hu, h⟩ := bind_eq_ok.1 h
  obtain ⟨_, v, hv, h⟩ := bind_eq_ok.1 h
  obtain ⟨rfl, rfl⟩ := device_eq_ok.1 ht
  obtain ⟨hadd, rfl⟩ := check_eq_ok.1 hu
  obtain rfl := update_eq_ok.1 hv
  refine ⟨now, checkedAdd_eq_ok_iff.1 hadd, ?_⟩
  obtain ⟨_, w, hw, h⟩ := bind_eq_ok.1 h
  obtain ⟨-, rfl⟩ := pure_eq_ok.1 h
  -- What follows are messages about the grids that go dark.
  show id w.device = id _
  exact keeps_forIn (by intros; exact keeps_bind (keeps_say _ _ _) fun _ => keeps_pure _) _ _ _ _ hw

/-- A swipe loads the scanner. -/
theorem Scanner.swipe_eq_ok {code : CardCode} {s s' : Observed Scanner}
    (h : Scanner.swipe code s = .ok () s') : s'.device = .loaded code := by
  obtain ⟨c, t, -, h⟩ := bind_eq_ok.1 h
  obtain ⟨_, u, -, h⟩ := bind_eq_ok.1 h
  obtain rfl := update_eq_ok.1 h
  rfl

namespace Machine

/-! ## Turns -/

/-- An event has one of its effects. -/
theorem effect_of_takeEvent {s s' : Observed Machine} {e : Entry} {rest : Timeline}
    (next : s.device.timeline.pop? = some (e, rest)) (h : takeEvent s = .ok () s') :
    Effect s.device .event s'.device := by
  obtain ⟨m, t, ht, h⟩ := bind_eq_ok.1 h
  obtain ⟨rfl, rfl⟩ := device_eq_ok.1 ht
  simp only [next] at h
  obtain ⟨_, u, hu, h⟩ := bind_eq_ok.1 h
  obtain rfl := update_eq_ok.1 hu
  -- The clock shows the time of the entry, which is off the timeline; the event does the rest.
  cases kind : e.event with
  | barcodeShift =>
    rw [kind] at h
    obtain ⟨_, v, hv, h⟩ := bind_eq_ok.1 h
    obtain ⟨m, w, hw, h⟩ := bind_eq_ok.1 h
    obtain rfl := update_eq_ok.1 hv
    obtain ⟨rfl, rfl⟩ := device_eq_ok.1 hw
    obtain ⟨due, timeline, period, scheduled, hd⟩ := scheduleAfter_eq_ok h
    rw [hd]
    exact .shift next kind period scheduled
  | displayTick =>
    rw [kind] at h
    obtain ⟨_, v, hv, h⟩ := bind_eq_ok.1 h
    obtain ⟨m, w, hw, h⟩ := bind_eq_ok.1 h
    obtain ⟨b, hb, rfl⟩ := within_eq_ok.1 hv
    obtain ⟨d, hd, rfl⟩ := within_eq_ok.1 hb
    obtain ⟨rfl, rfl⟩ := device_eq_ok.1 hw
    obtain ⟨due, timeline, period, scheduled, hs⟩ := scheduleAfter_eq_ok h
    obtain ⟨ticks, counted, htick⟩ := Display.tick_eq_ok hd
    rw [hs]
    simp only [htick]
    exact .tick next kind counted period scheduled
  | cardSwipe code =>
    rw [kind] at h
    change onBoard (Board.onScanner (Scanner.swipe code)) _ = _ at h
    obtain ⟨b, hb, rfl⟩ := within_eq_ok.1 h
    obtain ⟨c, hc, rfl⟩ := within_eq_ok.1 hb
    simp only [Scanner.swipe_eq_ok hc]
    exact .swipe next kind
  | keyChange k pressed =>
    rw [kind] at h
    obtain ⟨_, v, hv, h⟩ := bind_eq_ok.1 h
    obtain rfl := update_eq_ok.1 h
    simp only [device_of_say hv]
    exact .key next kind
  | speechDone generation =>
    rw [kind] at h
    obtain ⟨ended, v, hv, h⟩ := bind_eq_ok.1 h
    obtain ⟨b, hb, rfl⟩ := within_eq_ok.1 hv
    obtain ⟨c, hc, rfl⟩ := within_eq_ok.1 hb
    rcases StallControl.complete_eq_ok hc with ⟨rfl, stalled, hg, stalls, counted, hd⟩ |
      ⟨rfl, other, hd⟩
    · rw [if_pos rfl] at h
      obtain rfl := update_eq_ok.1 h
      simp only [hd]
      exact .release next (kind.trans (congrArg _ hg)) stalled counted
    · obtain ⟨-, rfl⟩ := pure_eq_ok.1 h
      simp only [hd]
      exact .spurious next kind other

/-- A step of the coprocessor has its effect. -/
theorem effect_of_takeMcu {s s' : Observed Machine} (h : takeMcu s = .ok () s') :
    Effect s.device .mcu s'.device := by
  obtain ⟨_, t, ht, h⟩ := bind_eq_ok.1 h
  obtain ⟨cycles, u, hu, h⟩ := bind_eq_ok.1 h
  obtain ⟨m, v, hv, h⟩ := bind_eq_ok.1 h
  obtain ⟨mcuTime, w, hw, h⟩ := bind_eq_ok.1 h
  obtain rfl := update_eq_ok.1 ht
  obtain ⟨rfl, rfl⟩ := device_eq_ok.1 hv
  obtain ⟨hadd, rfl⟩ := check_eq_ok.1 hw
  obtain rfl := update_eq_ok.1 h
  obtain ⟨p, b, step, hd⟩ := step_of_stepUnit hu (fun _ _ => rfl) (fun _ _ _ => rfl)
    (fun _ _ => rfl) (fun _ _ _ => rfl)
  rw [hd] at hadd
  simp only [hd]
  exact .mcu step (checkedAdd_eq_ok_iff.1 hadd)

/-- A step of the main unit has its effect. -/
theorem effect_of_takeMain {s s' : Observed Machine} (h : takeMain s = .ok () s') :
    Effect s.device .main s'.device := by
  obtain ⟨_, t, ht, h⟩ := bind_eq_ok.1 h
  obtain ⟨cycles, u, hu, h⟩ := bind_eq_ok.1 h
  obtain ⟨counted, v, hv, h⟩ := bind_eq_ok.1 h
  obtain ⟨m, w, hw, h⟩ := bind_eq_ok.1 h
  obtain ⟨mainTime, x, hx, h⟩ := bind_eq_ok.1 h
  obtain ⟨_, y, hy, h⟩ := bind_eq_ok.1 h
  obtain rfl := update_eq_ok.1 ht
  obtain ⟨b, hb, rfl⟩ := within_eq_ok.1 hv
  obtain ⟨c, hc, rfl⟩ := within_eq_ok.1 hb
  obtain ⟨rfl, rfl⟩ := device_eq_ok.1 hw
  obtain ⟨hadd, rfl⟩ := check_eq_ok.1 hx
  obtain rfl := update_eq_ok.1 hy
  obtain ⟨p, board, step, hd⟩ := step_of_stepUnit hu (fun _ _ => rfl) (fun _ _ _ => rfl)
    (fun _ _ => rfl) (fun _ _ _ => rfl)
  -- The cycles are counted after the step, so those of a step that begins a stall are not.
  obtain ⟨gatedCycles, hgated, hc⟩ := StallControl.advance_eq_ok hc
  obtain ⟨timeline, timed, times, hs⟩ := times_of_timePlayback h
  rw [hd] at hadd hgated
  simp only [hc, hd] at times hs
  rw [hs]
  exact .main step hgated (checkedAdd_eq_ok_iff.1 hadd) times

/-- A turn that succeeds has one of the effects of turns. -/
theorem effect_of_take {target : UInt64} {turn : Turn} {s s' : Observed Machine}
    (ht : s.device.turn? target = some turn) (h : take turn s = .ok () s') :
    Effect s.device turn s'.device := by
  cases turn with
  | event =>
    obtain ⟨e, rest, next, -⟩ := turn?_eq_event ht
    exact effect_of_takeEvent next h
  | mcu => exact effect_of_takeMcu h
  | main => exact effect_of_takeMain h

end Machine

end CardComputer
