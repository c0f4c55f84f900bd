import CardComputer.Proofs.Board.Unlogged
import CardComputer.Proofs.Machine.Saving
import CardComputer.Proofs.Timeline.Renumbering

/-!
# Twins

Twins are machines that differ in the numbers on their timelines, in the state of timers that time
all words alike, and in nothing else (`Machine.Twins`). Whatever their host does, they stay twins
and give the same answers, whatever their logs (`Machine.sim_performAll_twins`). Only when the first
one has used up its numbers can the second one still go on.

A machine that loads what another one has saved becomes its twin, so saving and loading makes no
difference to what happens afterwards (`Machine.save_load`).
-/

namespace CardComputer.Machine

open Op

/-- Two timers, with the words that each has timed, will time every word alike. -/
inductive TimeAlike : Option PlaybackTimer → List UInt8 → Option PlaybackTimer → List UInt8 → Prop
  /-- Without timers. -/
  | none {timed timed' : List UInt8} : TimeAlike none timed none timed'
  /-- Whatever words come in between. -/
  | some {timer timer' : PlaybackTimer} {timed timed' : List UInt8}
    (h : ∀ later word, timer.duration (later ++ timed) word =
      timer'.duration (later ++ timed') word) : TimeAlike (some timer) timed (some timer') timed'

theorem TimeAlike.refl (timer : Option PlaybackTimer) (timed : List UInt8) :
    TimeAlike timer timed timer timed := by
  cases timer with
  | none => exact .none
  | some timer => exact .some fun _ _ => rfl

/-- Timers that have timed one more word go on alike. -/
theorem TimeAlike.cons {timer timer' : Option PlaybackTimer} {timed timed' : List UInt8}
    (h : TimeAlike timer timed timer' timed') (word : UInt8) :
    TimeAlike timer (word :: timed) timer' (word :: timed') := by
  cases h with
  | none => exact .none
  | some h =>
    refine .some fun later w => ?_
    have hlater := h (later ++ [word]) w
    simpa using hlater

/-- The machine with another timeline and with a timer that has timed other words. -/
def retime (timeline : Timeline) (timer : Option PlaybackTimer) (timed : List UInt8) (m : Machine) :
    Machine :=
  { m with timeline, timer, timed }

/-- Two machines that differ at most in the numbers on their timelines, in what their timers have
timed, and in their logs. -/
def Twins (s t : Observed Machine) : Prop :=
  ∃ timeline timer timed, t.device = retime timeline timer timed s.device ∧
    s.device.timeline.Renumbered timeline ∧ TimeAlike s.device.timer s.device.timed timer timed

/-- The fault of a timeline that has no number left. -/
abbrev Exhausted : Fault → Prop := fun f => f = .addOverflow

/-! ## Operations on twins -/

/-- Twins stay twins when the same is done to them, apart from their timelines and timers. -/
theorem sim_update_twins {f : Machine → Machine}
    (h : ∀ m timeline timer timed,
      f (retime timeline timer timed m) = retime timeline timer timed (f m) ∧
        (f m).timeline = m.timeline ∧ (f m).timer = m.timer ∧ (f m).timed = m.timed) :
    Sim Exhausted Twins Twins (· = ·) (update f) (update f) := by
  refine sim_update ?_
  rintro s t ⟨timeline, timer, timed, ht, hr, ha⟩
  obtain ⟨heq, htimeline, htimer, htimed⟩ := h s.device timeline timer timed
  refine ⟨timeline, timer, timed, ?_, ?_, ?_⟩
  · simp only [ht]
    exact heq
  · simp only [htimeline]
    exact hr
  · simp only [htimer, htimed]
    exact ha

/-- The boards of twins are the same. -/
theorem sim_onBoard_twins {α : Type} {op : Op Board α} (h : Unlogged op) :
    Sim Exhausted Twins Twins (· = ·) (onBoard op) (onBoard op) := by
  refine sim_within (h.of_strict Exhausted) ?_ ?_
  · rintro s t ⟨timeline, timer, timed, ht, -⟩
    show s.device.board = t.device.board
    rw [ht]
    rfl
  · rintro s t x y ⟨timeline, timer, timed, ht, hr, ha⟩ hxy
    refine ⟨timeline, timer, timed, ?_, hr, ha⟩
    simp only [ht, ← show x.device = y.device from hxy]
    rfl

theorem sim_say_twins {c : Log.Category} {level : Log.Level} {text : Unit → String} :
    Sim Exhausted Twins Twins (· = ·) (say c level text) (say c level text) :=
  sim_say fun _ _ _ _ h => h

/-- Scheduling succeeds for the second twin if it does for the first. -/
theorem sim_schedule_twins {due due' : UInt64} (hdue : due = due') (event : Event) :
    Sim Exhausted Twins Twins (· = ·) (schedule due event) (schedule due' event) := by
  subst hdue
  refine sim_bind sim_device ?_
  rintro _ _ ⟨s, t, ⟨timeline, timer, timed, ht, hr, -⟩, rfl, rfl⟩
  -- Renumbering leaves the second timeline at least as many numbers as the first one.
  have hcheck : Sim Exhausted Twins Twins Timeline.Renumbered
      (check (s.device.timeline.schedule due event))
      (check (t.device.timeline.schedule due event)) := by
    refine sim_check_of_ok (fun u hu => ?_) fun f hf => Timeline.schedule_eq_error hf
    rw [ht]
    exact hr.schedule hu
  refine sim_bind hcheck fun u u' hu => sim_update ?_
  rintro s t ⟨timeline, timer, timed, ht, -, ha⟩
  refine ⟨u', timer, timed, ?_, hu, ha⟩
  simp only [ht]
  rfl

theorem sim_scheduleAfter_twins (due cycles : UInt64) (event : Event) :
    Sim Exhausted Twins Twins (· = ·)
      (scheduleAfter due cycles event) (scheduleAfter due cycles event) := by
  refine sim_bind sim_check ?_
  rintro due _ rfl
  exact sim_schedule_twins rfl event

/-! ## Turns of twins -/

/-- A swipe, which a scanner that is not ahead of a whole swipe takes whatever the log. -/
theorem agree_swipe_twins {s t : Observed Machine} (code : CardCode) (h : Twins s t)
    (hs : s.device.board.scanner.remaining ≤ Swipe.halfBits.toUInt8) :
    Agree Exhausted (· = ·) Twins (onBoard (Board.onScanner (Scanner.swipe code)) s)
      (onBoard (Board.onScanner (Scanner.swipe code)) t) := by
  have swiped (u : Observed Machine)
      (hu : u.device.board.scanner.remaining ≤ Swipe.halfBits.toUInt8) :
      ∃ log, onBoard (Board.onScanner (Scanner.swipe code)) u = .ok () ⟨{ u.device with
        board := { u.device.board with scanner := .loaded code } }, log⟩ := by
    obtain ⟨log, hlog⟩ := Scanner.swipe_eq_ok_of_le (s := ⟨u.device.board.scanner, u.log⟩) code hu
    exact ⟨log, within_eq_ok.2 ⟨_, within_eq_ok.2 ⟨_, hlog, rfl⟩, rfl⟩⟩
  -- Both scanners end up loaded; the logs may differ.
  obtain ⟨timeline, timer, timed, ht, hr, ha⟩ := h
  obtain ⟨log, hlog⟩ := swiped s hs
  obtain ⟨log', hlog'⟩ := swiped t (by rw [ht]; exact hs)
  rw [hlog, hlog']
  refine .ok rfl ⟨timeline, timer, timed, ?_, hr, ha⟩
  simp only [ht]
  rfl

/-- What an event does. -/
theorem sim_dispatch_twins (due : UInt64) (event : Event) :
    Sim Exhausted
      (fun s t => Twins s t ∧ s.device.board.scanner.remaining ≤ Swipe.halfBits.toUInt8) Twins
      (· = ·) (dispatch due event) (dispatch due event) := by
  cases event with
  | cardSwipe code => exact fun s t h => agree_swipe_twins code h.1 h.2
  | barcodeShift =>
    refine Sim.and_pre (sim_bind (sim_update_twins fun _ _ _ _ => ⟨rfl, rfl, rfl, rfl⟩)
      fun _ _ _ => sim_bind sim_device ?_)
    rintro _ _ ⟨s, t, ⟨timeline, timer, timed, ht, -⟩, rfl, rfl⟩
    -- The period is that of the configuration, which the twins share.
    rw [ht]
    exact sim_scheduleAfter_twins due _ _
  | displayTick =>
    refine Sim.and_pre (sim_bind (sim_onBoard_twins (unlogged_within Display.unlogged_tick))
      fun _ _ _ => sim_bind sim_device ?_)
    rintro _ _ ⟨s, t, ⟨timeline, timer, timed, ht, -⟩, rfl, rfl⟩
    rw [ht]
    exact sim_scheduleAfter_twins due _ _
  | keyChange key pressed =>
    exact Sim.and_pre (sim_bind sim_say_twins
      fun _ _ _ => sim_update_twins fun _ _ _ _ => ⟨rfl, rfl, rfl, rfl⟩)
  | speechDone generation =>
    refine Sim.and_pre (sim_bind (sim_onBoard_twins
      (unlogged_within (StallControl.unlogged_complete generation))) ?_)
    rintro ended _ rfl
    exact sim_ite (fun _ => sim_update_twins fun _ _ _ _ => ⟨rfl, rfl, rfl, rfl⟩)
      fun _ => sim_pure rfl

/-- An event happens: the next one of both. -/
theorem sim_takeEvent_twins :
    Sim Exhausted
      (fun s t => Twins s t ∧ s.device.board.scanner.remaining ≤ Swipe.halfBits.toUInt8) Twins
      (· = ·) takeEvent takeEvent := by
  refine sim_bind sim_device ?_
  rintro _ _ ⟨s, t, ⟨⟨timeline, timer, timed, ht, hr, ha⟩, -⟩, rfl, rfl⟩
  have htimeline : t.device.timeline = timeline := by rw [ht]; rfl
  rw [htimeline]
  cases hp : s.device.timeline.pop? with
  | none =>
    rw [hr.pop?_eq_none hp]
    exact Sim.and_pre (sim_pure rfl)
  | some popped =>
    obtain ⟨e, rest⟩ := popped
    -- The next entries differ at most in their numbers, which no event looks at.
    obtain ⟨⟨time, seq, event⟩, rest', hp', htime, hevent, hrest⟩ := hr.pop hp
    change time = e.time at htime
    change event = e.event at hevent
    subst htime hevent
    rw [hp']
    refine sim_bind (sim_update ?_) fun _ _ _ => sim_dispatch_twins e.time e.event
    rintro s t ⟨⟨timeline, timer, timed, ht, -, ha⟩, hs⟩
    refine ⟨⟨rest', timer, timed, ?_, hrest, ha⟩, hs⟩
    simp only [ht]
    rfl

/-- A step of a processor. -/
theorem sim_stepUnit_twins {get : Machine → Processor} {set : Processor → Machine → Machine}
    {bus : Bus Board} (hbus : ∀ a : Access, Unlogged (a.perform bus))
    (hget : ∀ m timeline timer timed, get (retime timeline timer timed m) = get m)
    (hset : ∀ p m timeline timer timed,
      set p (retime timeline timer timed m) = retime timeline timer timed (set p m) ∧
        (set p m).timeline = m.timeline ∧ (set p m).timer = m.timer ∧
        (set p m).timed = m.timed) :
    Sim Exhausted Twins Twins (· = ·) (stepUnit get set bus) (stepUnit get set bus) := by
  refine sim_stepUnit ?_ (fun p => sim_update_twins (hset p)) fun a => sim_onBoard_twins (hbus a)
  rintro s t ⟨timeline, timer, timed, ht, -⟩
  rw [ht, hget]

/-- The coprocessor makes a step. -/
theorem sim_takeMcu_twins : Sim Exhausted Twins Twins (· = ·) takeMcu takeMcu := by
  refine sim_bind (sim_update_twins fun _ _ _ _ => ⟨rfl, rfl, rfl, rfl⟩) fun _ _ _ => ?_
  refine sim_bind (sim_stepUnit_twins Board.unlogged_perform_mcuBus (fun _ _ _ _ => rfl)
    fun _ _ _ _ _ => ⟨rfl, rfl, rfl, rfl⟩) ?_
  rintro cycles _ rfl
  refine sim_bind sim_device ?_
  rintro _ _ ⟨s, t, ⟨timeline, timer, timed, ht, -⟩, rfl, rfl⟩
  rw [ht]
  refine sim_bind sim_check ?_
  rintro mcuTime _ rfl
  exact sim_update_twins fun _ _ _ _ => ⟨rfl, rfl, rfl, rfl⟩

/-- A word is timed, alike. -/
theorem sim_timePlayback_twins :
    Sim Exhausted Twins Twins (· = ·) timePlayback timePlayback := by
  refine sim_bind (sim_onBoard_twins (unlogged_change _)) ?_
  rintro word _ rfl
  cases word with
  | none => exact sim_pure rfl
  | some word =>
    refine sim_bind sim_device ?_
    rintro _ _ ⟨⟨m, log⟩, ⟨m', log'⟩, ⟨timeline, timer, timed, ht, -, ha⟩, rfl, rfl⟩
    change m' = _ at ht
    subst ht
    -- The timers are compared as parts of the two machines.
    obtain ⟨config, valid, main, mcu, board, timeline₀, now, mainTime, mcuTime, timer₀, timed₀⟩ := m
    cases ha with
    | none => exact sim_pure rfl
    | some h =>
      refine sim_bind (sim_update ?_) fun _ _ _ => sim_schedule_twins ?_ _
      · rintro s t ⟨timeline, timer, timed, ht, hr, ha⟩
        refine ⟨timeline, timer, word :: timed, ?_, hr, ha.cons word⟩
        simp only [ht]
        rfl
      · exact congrArg (fun us => addTime mainTime (config.usToCycles us)) (h [] word)

/-- The main unit makes a step. -/
theorem sim_takeMain_twins : Sim Exhausted Twins Twins (· = ·) takeMain takeMain := by
  refine sim_bind (sim_update_twins fun _ _ _ _ => ⟨rfl, rfl, rfl, rfl⟩) fun _ _ _ => ?_
  refine sim_bind (sim_stepUnit_twins Board.unlogged_perform_mainBus (fun _ _ _ _ => rfl)
    fun _ _ _ _ _ => ⟨rfl, rfl, rfl, rfl⟩) ?_
  rintro cycles _ rfl
  refine sim_bind (sim_onBoard_twins (unlogged_within (StallControl.unlogged_advance cycles))) ?_
  rintro counted _ rfl
  refine sim_bind sim_device ?_
  rintro _ _ ⟨s, t, ⟨timeline, timer, timed, ht, -⟩, rfl, rfl⟩
  rw [ht]
  refine sim_bind sim_check ?_
  rintro mainTime _ rfl
  exact sim_bind (sim_update_twins fun _ _ _ _ => ⟨rfl, rfl, rfl, rfl⟩)
    fun _ _ _ => sim_timePlayback_twins

/-! ## Runs of twins -/

/-- Twins have the same turn. -/
theorem Twins.turn?_eq {s t : Observed Machine} (h : Twins s t) (target : UInt64) :
    t.device.turn? target = s.device.turn? target := by
  obtain ⟨timeline, timer, timed, ht, hr, -⟩ := h
  -- Numbers do not decide when the next event is due.
  have hevent : t.device.eventDue = s.device.eventDue := by
    unfold eventDue
    rw [ht, ← hr.nextTime?_eq]
    rfl
  unfold turn?
  rw [hevent, ht]
  rfl

/-- A turn of the first twin is one of the second. -/
theorem agree_take_twins {target : UInt64} {turn : Turn} {s t : Observed Machine} (h : Twins s t)
    (hs : s.device.Regular) (ht : s.device.turn? target = some turn) :
    Agree Exhausted (· = ·) (fun s t => Twins s t ∧ s.device.Regular)
      (take turn s) (take turn t) := by
  have hstep : Agree Exhausted (· = ·) Twins (take turn s) (take turn t) := by
    cases turn with
    | event => exact sim_takeEvent_twins s t ⟨h, hs.scanner⟩
    | mcu => exact sim_takeMcu_twins s t h
    | main => exact sim_takeMain_twins s t h
  exact hstep.and_left fun _ _ hr => hs.effect (effect_of_take ht hr)

/-- A run. -/
theorem sim_runUntil_twins (target : UInt64) :
    Sim Exhausted (fun s t => Twins s t ∧ s.device.Regular) Twins (· = ·)
      (runUntil target) (runUntil target) := by
  rw [runUntil_eq]
  refine sim_bind (sim_turns ?_ ?_) fun _ _ _ => ?_
  · exact fun s t hst => hst.1.turn?_eq target
  · exact fun s t turn hst ht => agree_take_twins hst.1 hst.2 ht
  · exact Sim.and_pre (Sim.and_pre (sim_update_twins fun _ _ _ _ => ⟨rfl, rfl, rfl, rfl⟩))

/-- A run for a number of cycles. -/
theorem sim_runFor_twins (cycles : UInt64) :
    Sim Exhausted (fun s t => Twins s t ∧ s.device.Regular) Twins (· = ·)
      (runFor cycles) (runFor cycles) := by
  refine sim_bind sim_device ?_
  rintro _ _ ⟨s, t, ⟨⟨timeline, timer, timed, ht, -⟩, -⟩, rfl, rfl⟩
  rw [ht]
  refine sim_bind sim_check ?_
  rintro target _ rfl
  exact sim_runUntil_twins target

/-- A frame, which looks the same. -/
theorem sim_stepFrame_twins :
    Sim Exhausted (fun s t => Twins s t ∧ s.device.Regular) Twins (· = ·)
      stepFrame stepFrame := by
  refine sim_bind sim_device ?_
  rintro _ _ ⟨s, t, ⟨⟨timeline, timer, timed, ht, -⟩, -⟩, rfl, rfl⟩
  rw [ht]
  refine sim_bind (sim_runFor_twins _) fun _ _ _ => sim_bind sim_device ?_
  rintro _ _ ⟨s, t, ⟨timeline, timer, timed, ht, -⟩, rfl, rfl⟩
  refine sim_pure ?_
  rw [ht]
  rfl

/-! ## Calls -/

/-- A request. -/
theorem sim_request_twins (r : Request) :
    Sim Exhausted Twins Twins (· = ·) r.perform r.perform := by
  cases r with
  | install timer =>
    -- A new timer has timed nothing yet.
    refine sim_update ?_
    rintro s t ⟨timeline, timer', timed, ht, hr, -⟩
    refine ⟨timeline, some timer, [], ?_, hr, .refl (some timer) []⟩
    simp only [ht]
    rfl
  | swipe code =>
    refine sim_bind sim_device ?_
    rintro _ _ ⟨s, t, ⟨timeline, timer, timed, ht, -⟩, rfl, rfl⟩
    rw [ht]
    exact sim_schedule_twins rfl _
  | setKey key pressed =>
    refine sim_bind sim_device ?_
    rintro _ _ ⟨s, t, ⟨timeline, timer, timed, ht, -⟩, rfl, rfl⟩
    rw [ht]
    exact sim_schedule_twins rfl _
  | speechDone =>
    refine sim_bind sim_device ?_
    rintro _ _ ⟨s, t, ⟨timeline, timer, timed, ht, -⟩, rfl, rfl⟩
    rw [ht]
    exact sim_schedule_twins rfl _
  | pressReset =>
    exact sim_bind sim_say_twins fun _ _ _ =>
      sim_update_twins fun _ _ _ _ => ⟨rfl, rfl, rfl, rfl⟩

/-- A reset. -/
theorem sim_reset_twins :
    Sim Exhausted Twins Twins (· = ·) (Op.update Machine.reset) (Op.update Machine.reset) := by
  refine sim_update ?_
  rintro s t ⟨timeline, timer, timed, ht, -, ha⟩
  -- At power-on both timelines are the same again.
  have horderly := orderly_powerOnTimeline s.device.config
  refine ⟨powerOnTimeline s.device.config, timer, timed, ?_, ?_, ha⟩
  · simp only [ht]
    rfl
  · exact horderly.renumbered horderly rfl (UInt64.le_refl _)

/-- Loading what a regular machine has saved. -/
theorem sim_load_twins {saved : Machine} (h : saved.Regular) :
    Sim Exhausted Twins Twins (· = ·) (load saved.save) (load saved.save) := by
  refine sim_bind sim_device ?_
  rintro _ _ ⟨s, t, ⟨timeline, timer, timed, ht, -⟩, rfl, rfl⟩
  rw [ht]
  show Sim _ _ _ _ (check (readSnapshot s.device.config saved.save).run >>= _)
    (check (readSnapshot s.device.config saved.save).run >>= _)
  -- What is read depends on the configuration only.
  cases hread : (readSnapshot s.device.config saved.save).run with
  | error f => exact fun _ _ _ => .fault
  | ok result =>
    have hcheck : Sim Exhausted Twins Twins (fun r r' => r = result ∧ r' = result)
        (check (.ok result)) (check (.ok result)) :=
      fun _ _ hst => .ok ⟨rfl, rfl⟩ hst
    refine sim_bind hcheck ?_
    rintro r r' ⟨hr, hr'⟩
    rw [hr, hr']
    cases result with
    | error e => exact sim_pure rfl
    | ok snapshot =>
      refine sim_bind (sim_update ?_) fun _ _ _ => sim_pure rfl
      rintro s t ⟨timeline, timer, timed, ht, -, ha⟩
      have horderly := h.orderly_of_read hread
      refine ⟨snapshot.timeline, timer, timed, ?_, ?_, ha⟩
      · simp only [ht]
        rfl
      · exact horderly.renumbered horderly rfl (UInt64.le_refl _)

/-- A call, which answers the same. -/
theorem sim_call_twins {c : Call}
    (origin : ∀ saved, c = .load saved → saved.Regular) :
    Sim Exhausted (fun s t => Twins s t ∧ s.device.Regular)
      (fun s t => Twins s t ∧ s.device.Regular) (· = ·) c.perform c.perform := by
  rintro s t ⟨hst, hs⟩
  have hcall : Agree Exhausted (· = ·) Twins (c.perform s) (c.perform t) := by
    cases c with
    | request r =>
      exact sim_bind (sim_request_twins r) (fun _ _ _ => sim_pure rfl) s t hst
    | reset => exact sim_bind sim_reset_twins (fun _ _ _ => sim_pure rfl) s t hst
    | runUntil target =>
      exact sim_bind (sim_runUntil_twins target) (fun _ _ _ => sim_pure rfl) s t ⟨hst, hs⟩
    | stepFrame =>
      refine sim_bind sim_stepFrame_twins ?_ s t ⟨hst, hs⟩
      rintro frame _ rfl
      exact sim_pure rfl
    | load saved =>
      refine sim_bind (sim_load_twins (origin saved rfl)) ?_ s t hst
      rintro result _ rfl
      exact sim_pure rfl
  exact hcall.and_left fun _ _ hr => hs.perform origin hr

/-- Any calls one after the other on regular twins, which answer the same. -/
theorem sim_performAll_regular {calls : List Call}
    (origin : ∀ saved, .load saved ∈ calls → saved.Regular) :
    Sim Exhausted (fun s t => Twins s t ∧ s.device.Regular)
      (fun s t => Twins s t ∧ s.device.Regular) (· = ·) (performAll calls) (performAll calls) := by
  induction calls with
  | nil => exact sim_pure rfl
  | cons c calls ih =>
    have first := sim_call_twins (c := c) fun saved h => origin saved (h ▸ List.mem_cons_self)
    refine sim_bind first ?_
    rintro answer _ rfl
    refine sim_bind (ih fun saved h => origin saved (List.mem_cons_of_mem c h)) ?_
    rintro answers _ rfl
    exact sim_pure rfl

/-- Any calls one after the other on twins with a history, which answer the same. -/
theorem sim_performAll_twins {calls : List Call}
    (origin : ∀ saved, .load saved ∈ calls → ∃ past, History past saved) :
    Sim Exhausted (fun s t => Twins s t ∧ ∃ past, History past s.device)
      (fun s t => Twins s t ∧ s.device.Regular) (· = ·) (performAll calls) (performAll calls) := by
  have regular : ∀ saved, .load saved ∈ calls → saved.Regular := by
    intro saved h
    obtain ⟨past, hsaved⟩ := origin saved h
    exact hsaved.regular
  refine (sim_performAll_regular regular).mono ?_ (fun _ _ h => h) fun _ _ h => h
  rintro s t ⟨hst, past, hs⟩
  exact ⟨hst, hs.regular⟩

/-! ## Saving and loading -/

/-- Two machines that agree in all that their host can see or save, but for the numbers on their
timelines, which stand in the same order. -/
structure LookAlike (m m' : Machine) : Prop where
  board : m'.board = m.board
  now : m'.now = m.now
  mainTime : m'.mainTime = m.mainTime
  mcuTime : m'.mcuTime = m.mcuTime
  main : m'.main = m.main
  mcu : m'.mcu = m.mcu
  frame : m'.frame = m.frame
  /-- What the second machine saves is what the first one would save with other numbers, which are
  in the same order. -/
  saved : ∃ (f : UInt64 → UInt64) (timeline : Timeline),
    (∀ x ∈ m.timeline.entries, ∀ y ∈ m.timeline.entries, x.seq < y.seq → f x.seq < f y.seq) ∧
      timeline.entries = m.timeline.entries.map (Entry.renumber f) ∧
      m'.save = { m with timeline }.save

/-- Twins look alike. -/
theorem Twins.lookAlike {s t : Observed Machine} (h : Twins s t) :
    LookAlike s.device t.device := by
  obtain ⟨timeline, timer, timed, ht, ⟨f, hr⟩, -⟩ := h
  rw [ht]
  exact ⟨rfl, rfl, rfl, rfl, rfl, rfl, rfl, f, timeline, hr.mono, hr.entries, rfl⟩

/-- Saving and loading. What a machine with a history has saved is loaded by every machine of the
same model with the same decay window, which then saves the same, and refused by every other one. If
moreover the other machine has the same configuration, the same processors and a timer that times
words alike, then from then on both do the same: after any calls of their host, whatever their logs,
they have given the same answers and look alike, or have had the same fault, unless the first one
had an overflow. -/
theorem save_load {past : List Machine} {m : Machine} (hm : History past m) (other : Machine)
    (log : Log) :
    (other.CanLoad m →
      ∃ loaded, load m.save ⟨other, log⟩ = .ok (.ok ()) ⟨loaded, log⟩ ∧ loaded.save = m.save ∧
        (other.config = m.config → other.main = m.main → other.mcu = m.mcu →
          TimeAlike m.timer m.timed other.timer other.timed →
          ∀ calls : List Call, (∀ saved, .load saved ∈ calls → ∃ past, History past saved) →
          ∀ log₁ log₂, Agree Exhausted (· = ·) (fun s t => LookAlike s.device t.device)
            (performAll calls ⟨m, log₁⟩) (performAll calls ⟨loaded, log₂⟩))) ∧
    (¬other.CanLoad m → ∃ e, load m.save ⟨other, log⟩ = .ok (.error e) ⟨other, log⟩) := by
  have hregular := hm.regular
  refine ⟨fun hload => ?_, fun hload => hregular.load_save_of_not hload log⟩
  obtain ⟨timeline, hentries, hseq, horderly, hok⟩ := hregular.load_save
  refine ⟨restore { m.snapshot with timeline } other, hok other log hload, ?_, ?_⟩
  · simp only [save, Timeline.encode, restore, snapshot, hentries, hload.1]
  · intro hconfig hmain hmcu htimers calls horigin log₁ log₂
    -- What was loaded differs from what was saved in the next number only.
    have twins : Twins ⟨m, log₁⟩ ⟨restore { m.snapshot with timeline } other, log₂⟩ := by
      refine ⟨timeline, other.timer, other.timed, ?_, ?_, htimers⟩
      · cases other
        cases hconfig
        cases hmain
        cases hmcu
        rfl
      · exact hregular.orderly.renumbered horderly hentries hseq
    exact (sim_performAll_twins horigin _ _ ⟨twins, past, hm⟩).mono (fun _ _ h => h)
      fun _ _ h => h.1.lookAlike

/-- A talker loads what a talker has saved and goes on like it; a machine of a model without speech
refuses it. -/
theorem talker_save_load :
    (∃ loaded, load talker.save ⟨talker, .fresh⟩ = .ok (.ok ()) ⟨loaded, .fresh⟩ ∧
      loaded.save = talker.save ∧
      Agree Exhausted (· = ·) (fun s t => LookAlike s.device t.device)
        (performAll [.runUntil 1000, .request .speechDone, .stepFrame] ⟨talker, .fresh⟩)
        (performAll [.runUntil 1000, .request .speechDone, .stepFrame] ⟨loaded, .fresh⟩)) ∧
    ∃ e, load talker.save ⟨build (.forModel .gin) (by decide) talker.main talker.mcu none, .fresh⟩ =
      .ok (.error e)
        ⟨build (.forModel .gin) (by decide) talker.main talker.mcu none, .fresh⟩ := by
  have hm : History [] talker := .build _ _ _ _ _
  constructor
  · obtain ⟨loaded, hload, hsave, hrest⟩ := (save_load hm talker .fresh).1 ⟨rfl, rfl⟩
    refine ⟨loaded, hload, hsave, hrest rfl rfl rfl (.refl _ _) _ (fun saved hmem => ?_) _ _⟩
    simp at hmem
  · refine (save_load hm _ .fresh).2 fun hload => ?_
    exact absurd hload.1 (by decide)

end CardComputer.Machine
