import CardComputer.Proofs.Board.Near
import CardComputer.Proofs.Machine.Coprocessor
import CardComputer.Proofs.Machine.Pending
import CardComputer.Proofs.Timeline.Renumbering
import Mathlib.Data.List.Sort

/-!
# The coprocessor's side

What happens on the coprocessor's side of a machine depends on that side alone (`Machine.Side`): the
coprocessor, the near side of the board, and the pending events other than completions. As long as
the coprocessor is deaf to the mailbox, every turn of the machine leaves its side alone or does the
next thing that is to happen there (`Machine.Effect.side`). So however often the main unit steps
between, a run brings the side to one end only (`Machine.ends_of_turns`).
-/

namespace CardComputer

open Op

/-! ## Deaf coprocessors -/

/-- No access in the script reads what the main unit writes. -/
def Processor.Deaf (p : Processor) : Prop :=
  ∀ i ∈ p.script, i.access.Deaf

/-- The instruction that is fetched stands in the script. -/
theorem Processor.mem_script_of_fetch {p : Processor} {i : Instruction}
    (h : p.fetch.1 = some i) : i ∈ p.script := by
  unfold fetch at h
  dsimp only at h
  split at h
  · exact Array.mem_of_getElem? h
  · cases h

/-- What a step of a deaf coprocessor does is determined by it and the near side of the board. -/
theorem Processor.Deaf.afterStep {p : Processor} (deaf : p.Deaf) (b : Board) :
    (p.afterStep (b.near.setTime b.now)).1 = (p.afterStep b).1 ∧
      (p.afterStep (b.near.setTime b.now)).2.1.near = (p.afterStep b).2.1.near ∧
      (p.afterStep (b.near.setTime b.now)).2.2 = (p.afterStep b).2.2 := by
  unfold Processor.afterStep
  rcases hf : p.fetch with ⟨_ | i, q⟩
  · exact ⟨rfl, rfl, rfl⟩
  · have hfetch : p.fetch.1 = some i := by rw [hf]
    obtain ⟨hread, hnear⟩ := Board.near_afterAccess (deaf i (mem_script_of_fetch hfetch)) b
    dsimp only
    rw [hread]
    exact ⟨rfl, hnear, rfl⟩

/-- A step of the main unit does not reach the near side. -/
theorem Processor.Step.near_eq {p p' : Processor} {b b' : Board} {cycles : UInt32}
    (h : p.Step Board.mainBus b p' b' cycles) : b'.near = b.near := by
  cases h with
  | idle => rfl
  | access _ performed => exact Board.keeps_near_perform_mainBus _ _ _ _ performed

/-! ## Peripheral events -/

/-- Whether an event concerns more than the main unit. -/
def Event.isPeripheral : Event → Bool
  | speechDone _ => false
  | _ => true

namespace Timeline

variable {t t' rest : Timeline} {e : Entry} {time : UInt64} {event : Event}

/-- The pending events other than completions, with their times. -/
def peripheral (t : Timeline) : List (UInt64 × Event) :=
  (t.ofKind Event.isPeripheral).map fun e => (e.time, e.event)

/-- Puts an event behind those that are not later. -/
def postpone (time : UInt64) (event : Event) (pending : List (UInt64 × Event)) :
    List (UInt64 × Event) :=
  pending.orderedInsert (fun a b => a.1 < b.1) (time, event)

theorem peripheral_schedule (orderly : t.Orderly) (h : t.schedule time event = .ok t')
    (hk : event.isPeripheral = true) : t'.peripheral = postpone time event t.peripheral := by
  have fresh : ∀ x ∈ t.ofKind Event.isPeripheral, x.seq < t.nextSeq :=
    fun x hx => orderly.fresh x (mem_ofKind.1 hx).1
  rw [peripheral, ofKind_schedule h hk, peripheral]
  generalize t.ofKind Event.isPeripheral = entries at fresh
  induction entries with
  | nil => rfl
  | cons x rest ih =>
    have hx : x.seq < t.nextSeq := fresh x List.mem_cons_self
    have hrest := ih fun y hy => fresh y (List.mem_cons_of_mem x hy)
    -- Both searches stop before the first entry of a later time.
    rw [insertEntry, before_of_fresh hx, List.map_cons, postpone, List.orderedInsert_cons]
    by_cases hlt : time < x.time
    · rw [if_pos (decide_eq_true hlt), if_pos hlt]
      rfl
    · rw [if_neg (by simpa using hlt), if_neg hlt, List.map_cons, hrest]
      rfl

theorem peripheral_schedule_of_not (h : t.schedule time event = .ok t')
    (hk : event.isPeripheral = false) : t'.peripheral = t.peripheral := by
  rw [peripheral, ofKind_schedule_of_ne h hk, peripheral]

theorem peripheral_pop (h : t.pop? = some (e, rest)) (hk : e.event.isPeripheral = true) :
    t.peripheral = (e.time, e.event) :: rest.peripheral := by
  rw [peripheral, ofKind_pop h hk, List.map_cons, peripheral]

theorem peripheral_pop_of_not (h : t.pop? = some (e, rest)) (hk : e.event.isPeripheral = false) :
    rest.peripheral = t.peripheral := by
  rw [peripheral, ofKind_pop_of_ne h hk, peripheral]

/-- A peripheral event is pending at the time of its entry. -/
theorem exists_of_mem_peripheral {x : UInt64 × Event} (h : x ∈ t.peripheral) :
    ∃ e ∈ t.entries, e.time = x.1 := by
  obtain ⟨e, he, rfl⟩ := List.mem_map.1 h
  exact ⟨e, (mem_ofKind.1 he).1, rfl⟩

end Timeline

namespace Machine

/-! ## What is to happen next -/

/-- The coprocessor's side of a machine. -/
@[ext]
structure Side where
  config : Config
  mcu : Processor
  /-- When the coprocessor steps next. -/
  mcuTime : UInt64
  /-- The near side of the board. -/
  board : Board
  /-- The pending events other than completions, with their times. -/
  pending : List (UInt64 × Event)

/-- The coprocessor's side of the machine. -/
def side (m : Machine) : Side where
  config := m.config
  mcu := m.mcu
  mcuTime := m.mcuTime
  board := m.board.near
  pending := m.timeline.peripheral

namespace Side

/-- The side after an event that happens at a time. -/
def happen (time : UInt64) (event : Event) (s : Side) : Side :=
  match event with
  | .barcodeShift => { s with
      board := { s.board with scanner := s.board.scanner.tick }
      pending := Timeline.postpone (time + s.config.barcodeShiftCycles) .barcodeShift s.pending }
  | .displayTick => { s with
      board := { s.board with display := { s.board.display with now := s.board.display.now + 1 } }
      pending := Timeline.postpone (time + s.config.displayTickCycles) .displayTick s.pending }
  | .cardSwipe code => { s with board := { s.board with scanner := .loaded code } }
  | .keyChange k pressed => { s with board := s.board.setKey k pressed }
  | .speechDone _ => s

/-- The side after a step of the coprocessor. -/
def step (s : Side) : Side :=
  let after := s.mcu.afterStep (s.board.setTime s.mcuTime)
  { s with
    mcu := after.1
    board := after.2.1.near
    mcuTime := s.mcuTime + masterCycles after.2.2 s.config.mcuDivider }

/-- The side after a step of the coprocessor before a time, if it is to make one. -/
def stepBefore? (target : UInt64) (s : Side) : Option Side :=
  if s.mcuTime < target then some s.step else none

/-- The side after what is to happen next before a time, if there is something. -/
def next? (target : UInt64) (s : Side) : Option Side :=
  match s.pending with
  | [] => s.stepBefore? target
  | (time, event) :: pending =>
    if s.mcuTime < time then s.stepBefore? target
    else if time < target then some (happen time event { s with pending })
    else none

variable {target : UInt64} {s t : Side}

/-- An event that is not later than the coprocessor happens next. -/
theorem next?_event {time : UInt64} {event : Event} {pending : List (UInt64 × Event)}
    (first : s.pending = (time, event) :: pending) (due : time ≤ s.mcuTime)
    (before : time < target) : s.next? target = some (happen time event { s with pending }) := by
  unfold next?
  rw [first]
  dsimp only
  rw [if_neg (UInt64.not_lt.2 due), if_pos before]

/-- The coprocessor steps next if all events are later. -/
theorem next?_step (later : ∀ x ∈ s.pending, s.mcuTime < x.1) (before : s.mcuTime < target) :
    s.next? target = some s.step := by
  unfold next?
  cases hp : s.pending with
  | nil => exact if_pos before
  | cons x pending =>
    dsimp only
    rw [if_pos (later x (hp ▸ List.mem_cons_self))]
    exact if_pos before

/-- Nothing happens next if nothing is to be done before the time. -/
theorem next?_none (events : ∀ x ∈ s.pending, target ≤ x.1) (mcu : target ≤ s.mcuTime) :
    s.next? target = none := by
  unfold next?
  cases hp : s.pending with
  | nil => exact if_neg (UInt64.not_lt.2 mcu)
  | cons x pending =>
    dsimp only
    split
    · exact if_neg (UInt64.not_lt.2 mcu)
    · exact if_neg (UInt64.not_lt.2 (events x (hp ▸ List.mem_cons_self)))

/-- What is to happen before a time brings the first side to the second, and no further. -/
inductive Ends (target : UInt64) : Side → Side → Prop
  | stop {s : Side} (h : s.next? target = none) : Ends target s s
  | go {s t u : Side} (h : s.next? target = some t) (rest : Ends target t u) : Ends target s u

/-- A side has one end. -/
theorem Ends.unique {u v : Side} (h : Ends target s u) (h' : Ends target s v) : u = v := by
  induction h with
  | stop h =>
    cases h' with
    | stop => rfl
    | go hnext =>
      rw [h] at hnext
      cases hnext
  | go h rest ih =>
    cases h' with
    | stop hnone =>
      rw [h] at hnone
      cases hnone
    | go hnext rest' =>
      rw [h] at hnext
      cases hnext
      exact ih rest'

end Side

/-! ## Turns -/

section Turns

variable {m m' : Machine} {target : UInt64} {turn : Turn}

/-- A peripheral event is the next thing on the coprocessor's side when it has the turn. -/
theorem next?_side_event {e : Entry} {rest : Timeline} (ht : m.turn? target = some .event)
    (next : m.timeline.pop? = some (e, rest)) (hk : e.event.isPeripheral = true) :
    m.side.next? target =
      some (Side.happen e.time e.event { m.side with pending := rest.peripheral }) := by
  have due := due_of_turn? ht
  have htime := turnTime_event next
  exact Side.next?_event (Timeline.peripheral_pop next hk) (htime ▸ due.mcu) (htime ▸ due.target)

/-- A step of the coprocessor is the next thing on its side when it has the turn. -/
theorem next?_side_mcu (ht : m.turn? target = some .mcu) :
    m.side.next? target = some m.side.step := by
  have due := due_of_turn? ht
  refine Side.next?_step (fun x hx => ?_) due.target
  obtain ⟨e, he, hx⟩ := Timeline.exists_of_mem_peripheral hx
  rw [← hx]
  exact UInt64.lt_of_lt_of_le (due.event_later nofun) (le_eventDue_iff.1 (UInt64.le_refl _) e he)

/-- A sum that fits is the sum of the words. -/
theorem eq_add_of_toNat {a b c : UInt64} (h : c.toNat = a.toNat + b.toNat) : c = a + b := by
  have hlt := c.toNat_lt
  rw [← UInt64.toNat_inj, UInt64.toNat_add]
  omega

theorem Times.peripheral_eq {b : Board} {mainTime : UInt64} {timeline : Timeline}
    {timed : List UInt8} (h : m.Times b mainTime timeline timed) :
    timeline.peripheral = m.timeline.peripheral := by
  rw [Timeline.peripheral, h.ofKind_eq fun _ => rfl, Timeline.peripheral]

/-- The coprocessor's side after an event that is followed by the next one of its kind. -/
theorem peripheral_reschedule {e : Entry} {rest timeline : Timeline} {due period : UInt64}
    {event : Event} (regular : m.Regular) (next : m.timeline.pop? = some (e, rest))
    (later : due.toNat = e.time.toNat + period.toNat)
    (scheduled : rest.schedule due event = .ok timeline) (hk : event.isPeripheral = true) :
    timeline.peripheral = Timeline.postpone (e.time + period) event rest.peripheral := by
  rw [← eq_add_of_toNat later]
  exact Timeline.peripheral_schedule (regular.orderly.pop next) scheduled hk

/-- A turn leaves the coprocessor's side alone or does the next thing that is to happen there. -/
theorem Effect.side (regular : m.Regular) (deaf : m.mcu.Deaf) (ht : m.turn? target = some turn)
    (he : Effect m turn m') : m'.side = m.side ∨ m.side.next? target = some m'.side := by
  cases he with
  | shift next kind period scheduled =>
    right
    rw [next?_side_event ht next (kind ▸ rfl), kind]
    have hpending := peripheral_reschedule regular next period scheduled rfl
    exact congrArg some (Side.ext rfl rfl rfl rfl hpending.symm)
  | tick next kind counted period scheduled =>
    right
    rw [next?_side_event ht next (kind ▸ rfl), kind]
    have hpending := peripheral_reschedule regular next period scheduled rfl
    obtain rfl := eq_add_of_toNat (b := 1) counted
    exact congrArg some (Side.ext rfl rfl rfl rfl hpending.symm)
  | swipe next kind =>
    right
    rw [next?_side_event ht next (kind ▸ rfl), kind]
    rfl
  | key next kind =>
    right
    rw [next?_side_event ht next (kind ▸ rfl), kind]
    rfl
  | release next kind stalled counted =>
    left
    exact Side.ext rfl rfl rfl rfl (Timeline.peripheral_pop_of_not next (kind ▸ rfl))
  | spurious next kind other =>
    left
    exact Side.ext rfl rfl rfl rfl (Timeline.peripheral_pop_of_not next (kind ▸ rfl))
  | @mcu mcu board cycles mcuTime step later =>
    right
    rw [next?_side_mcu ht]
    -- The step sees the near side and its own time, and no more of the board.
    obtain ⟨hmcu, hboard, hcycles⟩ := deaf.afterStep (m.board.setTime m.mcuTime)
    rw [step.eq_afterStep] at hmcu hboard hcycles
    have htime : m.side.step.mcuTime = mcuTime :=
      calc
        _ = m.mcuTime + masterCycles cycles m.config.mcuDivider :=
          congrArg (fun c => m.mcuTime + masterCycles c m.config.mcuDivider) hcycles
        _ = mcuTime := (eq_add_of_toNat later).symm
    exact congrArg some (Side.ext rfl hmcu htime hboard rfl)
  | main step counted later times =>
    left
    exact Side.ext rfl rfl rfl step.near_eq times.peripheral_eq

/-- A turn leaves the script of the coprocessor as it is. -/
theorem Effect.deaf (he : Effect m turn m') (deaf : m.mcu.Deaf) : m'.mcu.Deaf := by
  cases he with
  | mcu step later =>
    have hscript := m.mcu.script_afterStep (m.board.setTime m.mcuTime)
    rw [step.eq_afterStep] at hscript
    exact fun i hi => deaf i (hscript ▸ hi)
  | _ => exact deaf

/-- The turns before a time bring the coprocessor's side to its end. -/
theorem ends_of_turns {s s' : Observed Machine} (regular : s.device.Regular)
    (deaf : s.device.mcu.Deaf) (h : turns target s = .ok () s') :
    Side.Ends target s.device.side s'.device.side ∧ s'.device.mcu.Deaf := by
  induction s using turns_induct target with
  | stop s ht =>
    rw [turns_of_none ht] at h
    cases h
    have hup := turn?_eq_none.1 ht
    refine ⟨.stop (Side.next?_none (fun x hx => ?_) hup.mcu), deaf⟩
    obtain ⟨e, he, hx⟩ := Timeline.exists_of_mem_peripheral hx
    exact hx ▸ hup.events e he
  | go s turn ht ih =>
    rw [turns_of_some ht] at h
    obtain ⟨_, t, hstep, h⟩ := bind_eq_ok.1 h
    have effect := effect_of_take ht hstep
    obtain ⟨rest, hdeaf⟩ := ih t hstep (regular.effect effect) (effect.deaf deaf) h
    refine ⟨?_, hdeaf⟩
    -- Turns of the main unit and completions are skipped.
    rcases effect.side regular deaf ht with hsame | hnext
    · exact hsame ▸ rest
    · exact .go hnext rest

end Turns

end Machine

end CardComputer
