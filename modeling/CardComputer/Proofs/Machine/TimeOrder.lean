import CardComputer.Proofs.Machine.Pending

/-!
# The order of a run

The actions of a run (`Machine.actions`) are the turns that it takes, each with the machine that
takes it and the states which that machine has gone through. They are in the order of their times;
of the actions of one time events come first, in the order in which they were scheduled, then the
coprocessor, then the main unit (`Machine.run_in_order`). What keeps them in order is that after an
action only later ones are left to do (`Machine.After`).
-/

namespace CardComputer.Machine

open Op

/-! ## Actions -/

/-- A turn that a machine takes in a run. -/
structure Action where
  /-- The states that the machine has gone through. -/
  past : List Machine
  /-- The machine before the turn. -/
  machine : Machine
  turn : Turn

/-- When an action happens: at the time of the event, or at that of the processor. -/
def Action.time (a : Action) : UInt64 := a.machine.turnTime a.turn

/-- The entry of the event that happens in an action. -/
def Action.dispatched? (a : Action) : Option Entry :=
  match a.turn with
  | .event => a.machine.timeline.pop?.map Prod.fst
  | .mcu | .main => none

/-- The place of a turn among those of the same time. -/
def rank : Turn → Nat
  | .event => 0
  | .mcu => 1
  | .main => 2

/-- Of two actions the first comes before the second: it happens earlier, or at the same time with a
lesser rank, or both are events of the same time that were scheduled in this order. -/
def Action.Before (a b : Action) : Prop :=
  a.time < b.time ∨ a.time = b.time ∧ (rank a.turn < rank b.turn ∨
    ∃ e e', a.dispatched? = some e ∧ b.dispatched? = some e' ∧
      ScheduledBefore (a.machine :: a.past) e e')

/-- The actions of a run to a time, of a machine with the states that it has gone through. A run
that fails ends with the action that fails. -/
def actions (target : UInt64) (past : List Machine) (s : Observed Machine) : List Action :=
  match _ht : s.device.turn? target with
  | none => []
  | some turn => ⟨past, s.device, turn⟩ ::
    match _h : take turn s with
    | .ok () t => actions target (s.device :: past) t
    | .error _ _ => []
termination_by s.device.agenda.work target
decreasing_by exact work_take_lt _ht _h

/-- Takes turns one after the other. -/
def takeAll : List Turn → Op Machine Unit
  | [] => return ()
  | turn :: turns => do
    take turn
    takeAll turns

/-- A run without a turn has no actions. -/
theorem actions_of_none {target : UInt64} {past : List Machine} {s : Observed Machine}
    (ht : s.device.turn? target = none) : actions target past s = [] := by
  rw [actions]
  split
  · rfl
  · rename_i turn ht'
    rw [ht] at ht'
    cases ht'

/-- After the first action a run goes on. -/
theorem actions_of_ok {target : UInt64} {past : List Machine} {s t : Observed Machine} {turn : Turn}
    (ht : s.device.turn? target = some turn) (h : take turn s = .ok () t) :
    actions target past s = ⟨past, s.device, turn⟩ :: actions target (s.device :: past) t := by
  rw [actions]
  split
  · rename_i ht'
    rw [ht] at ht'
    cases ht'
  · rename_i turn' ht'
    obtain rfl := Option.some.inj (ht.symm.trans ht')
    split
    · rename_i t' h'
      rw [h] at h'
      cases h'
      rfl
    · rename_i f t' h'
      rw [h] at h'
      cases h'

/-- An action that fails is the last one. -/
theorem actions_of_error {target : UInt64} {past : List Machine} {s t : Observed Machine}
    {turn : Turn} {f : Fault} (ht : s.device.turn? target = some turn)
    (h : take turn s = .error f t) : actions target past s = [⟨past, s.device, turn⟩] := by
  rw [actions]
  split
  · rename_i ht'
    rw [ht] at ht'
    cases ht'
  · rename_i turn' ht'
    obtain rfl := Option.some.inj (ht.symm.trans ht')
    split
    · rename_i t' h'
      rw [h] at h'
      cases h'
    · rfl

/-- An induction over the actions of a run. -/
theorem actions_induct (target : UInt64) {motive : List Machine → Observed Machine → Prop}
    (stop : ∀ past s, s.device.turn? target = none → motive past s)
    (fail : ∀ past s turn f t, s.device.turn? target = some turn → take turn s = .error f t →
      motive past s)
    (go : ∀ past s turn t, s.device.turn? target = some turn → take turn s = .ok () t →
      motive (s.device :: past) t → motive past s)
    (past : List Machine) (s : Observed Machine) : motive past s := by
  induction s using turns_induct target generalizing past with
  | stop s ht => exact stop past s ht
  | go s turn ht ih =>
    cases h : take turn s with
    | error f t => exact fail past s turn f t ht h
    | ok _ t => exact go past s turn t ht h (ih t h (s.device :: past))

/-- A run takes the turns of its actions. -/
theorem turns_eq_takeAll (target : UInt64) (past : List Machine) (s : Observed Machine) :
    turns target s = takeAll ((actions target past s).map Action.turn) s := by
  induction past, s using actions_induct target with
  | stop past s ht =>
    rw [turns_of_none ht, actions_of_none ht]
    rfl
  | fail past s turn f t ht h =>
    rw [turns_of_some ht, actions_of_error ht h, bind_of_error h, List.map_cons, takeAll,
      bind_of_error h]
  | go past s turn t ht h ih =>
    rw [turns_of_some ht, actions_of_ok ht h, bind_of_ok h, ih, List.map_cons, takeAll,
      bind_of_ok h]

/-- What every turn keeps holds of all machines in the actions of a run. -/
theorem forall_actions {P : List Machine → Machine → Prop} {target : UInt64}
    (step : ∀ past s turn t, P past s.device → s.device.turn? target = some turn →
      take turn s = .ok () t → P (s.device :: past) t.device)
    {past : List Machine} {s : Observed Machine} (hs : P past s.device) :
    ∀ a ∈ actions target past s, P a.past a.machine ∧ a.machine.turn? target = some a.turn := by
  induction past, s using actions_induct target with
  | stop past s ht =>
    rw [actions_of_none ht]
    intro a ha
    cases ha
  | fail past s turn f t ht h =>
    rw [actions_of_error ht h]
    intro a ha
    obtain rfl := List.mem_singleton.1 ha
    exact ⟨hs, ht⟩
  | go past s turn t ht h ih =>
    rw [actions_of_ok ht h]
    intro a ha
    rcases List.mem_cons.1 ha with rfl | ha
    · exact ⟨hs, ht⟩
    · exact ih (step past s turn t hs ht h) a ha

/-! ## What comes after an action -/

/-- All that is left to do comes after an action. -/
structure After (a : Action) (m : Machine) : Prop where
  /-- So do the pending events. -/
  events : ∀ e ∈ m.timeline.entries, a.time < e.time ∨ a.time = e.time ∧
    ∃ e₀, a.dispatched? = some e₀ ∧ ScheduledBefore (a.machine :: a.past) e₀ e
  /-- So does the next step of the coprocessor. -/
  mcu : a.time < m.mcuTime ∨ a.time = m.mcuTime ∧ rank a.turn < rank .mcu
  /-- So does the next step of the main unit, unless it is stalled. -/
  main : m.isStalled = false →
    a.time < m.mainTime ∨ a.time = m.mainTime ∧ rank a.turn < rank .main

/-- Only events are dispatched. -/
theorem Action.turn_of_dispatched {a : Action} {e : Entry} (h : a.dispatched? = some e) :
    a.turn = .event := by
  unfold dispatched? at h
  split at h
  · assumption
  · cases h
  · cases h

/-- An event happens at the time of its entry. -/
theorem Action.time_of_dispatched {a : Action} {e : Entry} (h : a.dispatched? = some e) :
    a.time = e.time := by
  have hturn := turn_of_dispatched h
  unfold dispatched? at h
  rw [hturn] at h
  obtain ⟨⟨e', rest⟩, hp, rfl⟩ := Option.map_eq_some_iff.1 h
  unfold time
  rw [hturn]
  exact turnTime_event hp

/-- The turn of an event dispatches one. -/
theorem Action.exists_dispatched {a : Action} {target : UInt64}
    (ht : a.machine.turn? target = some a.turn) (hturn : a.turn = .event) :
    ∃ e, a.dispatched? = some e ∧ a.time = e.time := by
  rw [hturn] at ht
  obtain ⟨e, rest, hp, -⟩ := turn?_eq_event ht
  have hentry : a.dispatched? = some e := by simp [dispatched?, hturn, hp]
  exact ⟨e, hentry, time_of_dispatched hentry⟩

/-- What comes after a time, or at it for some reason, also does so later. -/
theorem lt_or_eq_and_of_le {a b c : UInt64} {P : Prop} (h : a < b ∨ a = b ∧ P) (hbc : b ≤ c) :
    a < c ∨ a = c ∧ P := by
  rcases h with hlt | ⟨rfl, hp⟩
  · exact Or.inl (UInt64.lt_of_lt_of_le hlt hbc)
  · exact (UInt64.lt_or_eq_of_le hbc).imp_right fun heq => ⟨heq, hp⟩

/-- What comes after an action is not earlier. -/
theorem After.caughtUp {a : Action} {m : Machine} (h : After a m) : m.CaughtUp a.time := by
  refine ⟨fun e he => ?_, ?_, fun hs => ?_⟩
  · exact UInt64.le_iff_lt_or_eq.2 ((h.events e he).imp_right And.left)
  · exact UInt64.le_iff_lt_or_eq.2 (h.mcu.imp_right And.left)
  · exact UInt64.le_iff_lt_or_eq.2 ((h.main hs).imp_right And.left)

/-- What a turn leaves to do also comes after every action before that turn. -/
theorem After.effect {a : Action} {target : UInt64} {m m' : Machine} {turn : Turn} (h : After a m)
    (ht : m.turn? target = some turn) (he : Effect m turn m') : After a m' := by
  have hle := h.caughtUp.le_turnTime ht
  have timing := he.timing
  refine ⟨fun e hmem => ?_, lt_or_eq_and_of_le h.mcu timing.mcu, fun hs' => ?_⟩
  · rcases timing.events e hmem with hold | hnew
    · exact h.events e (mem_of_mem_remaining hold)
    · exact Or.inl (UInt64.lt_of_le_of_lt hle hnew)
  · cases hs : m.isStalled with
    | false => exact lt_or_eq_and_of_le (h.main hs) timing.main
    | true =>
      -- The stall is ended by an event, so an action of that time is one, too.
      obtain ⟨rfl, hrelease⟩ := timing.release hs hs'
      obtain ⟨e, rest, hp, -⟩ := turn?_eq_event ht
      rw [turnTime_event hp] at hrelease
      have hmem := Timeline.mem_of_pop hp
      refine lt_or_eq_and_of_le ((h.events e hmem).imp_right ?_) hrelease
      rintro ⟨heq, e₀, he₀, -⟩
      rw [Action.turn_of_dispatched he₀]
      exact ⟨heq, by decide⟩

/-- What an action leaves on the timeline comes after it. -/
theorem after_remaining {past : List Machine} {m : Machine} {target : UInt64} {turn : Turn}
    {e : Entry} (hm : History past m) (ht : m.turn? target = some turn)
    (he : e ∈ m.remaining turn) :
    m.turnTime turn < e.time ∨ m.turnTime turn = e.time ∧
      ∃ e₀, (⟨past, m, turn⟩ : Action).dispatched? = some e₀ ∧
        ScheduledBefore (m :: past) e₀ e := by
  have hmem := mem_of_mem_remaining he
  by_cases hturn : turn = .event
  · subst hturn
    obtain ⟨e₀, rest, hp, -⟩ := turn?_eq_event ht
    rw [remaining_event hp] at he
    rw [turnTime_event hp]
    -- Events of the same time happen in the order of their numbers, which is that of scheduling.
    rcases Entry.before_iff.1 (hm.regular.orderly.before_of_pop hp he) with hlt | ⟨heq, hlt⟩
    · exact Or.inl (UInt64.lt_iff_toNat_lt.2 hlt)
    · refine Or.inr ⟨UInt64.toNat_inj.1 heq, e₀, by simp [Action.dispatched?, hp], ?_⟩
      exact hm.scheduledBefore (Timeline.mem_of_pop hp) hmem (UInt64.lt_iff_toNat_lt.2 hlt)
  · -- A processor has the turn only if the next event is later.
    have hdue := le_eventDue_iff.1 (UInt64.le_refl _) e hmem
    exact Or.inl (UInt64.lt_of_lt_of_le ((due_of_turn? ht).event_later hturn) hdue)

/-- All that an action leaves to do comes after it. -/
theorem after_self {past : List Machine} {m m' : Machine} {target : UInt64} {turn : Turn}
    (hm : History past m) (ht : m.turn? target = some turn) (he : Effect m turn m') :
    After ⟨past, m, turn⟩ m' := by
  have due := due_of_turn? ht
  have timing := he.timing
  refine ⟨fun e hmem => ?_, ?_, fun hs' => ?_⟩
  · exact (timing.events e hmem).elim (after_remaining hm ht) Or.inl
  · cases turn with
    | event =>
      refine lt_or_eq_and_of_le ?_ timing.mcu
      exact (UInt64.lt_or_eq_of_le due.mcu).imp_right fun heq => ⟨heq, Nat.zero_lt_one⟩
    | mcu => exact Or.inl (timing.mcu_turn rfl)
    | main => exact Or.inl (UInt64.lt_of_lt_of_le (due.mcu_later rfl) timing.mcu)
  · cases hs : m.isStalled with
    | false =>
      have hmain := due.main
      rw [mainDue_eq hs] at hmain
      cases turn with
      | event =>
        refine lt_or_eq_and_of_le ?_ timing.main
        exact (UInt64.lt_or_eq_of_le hmain).imp_right fun heq => ⟨heq, Nat.zero_lt_two⟩
      | mcu =>
        refine lt_or_eq_and_of_le ?_ timing.main
        exact (UInt64.lt_or_eq_of_le hmain).imp_right fun heq => ⟨heq, Nat.one_lt_two⟩
      | main => exact Or.inl (timing.main_turn rfl)
    | true =>
      -- The event has ended the stall, and the main unit goes on at its time.
      obtain ⟨rfl, hrelease⟩ := timing.release hs hs'
      exact (UInt64.lt_or_eq_of_le hrelease).imp_right fun heq => ⟨heq, Nat.zero_lt_two⟩

/-- The next turn comes after the action. -/
theorem After.before {a b : Action} {target : UInt64} (h : After a b.machine)
    (ht : b.machine.turn? target = some b.turn) : a.Before b := by
  obtain ⟨past, m, turn⟩ := b
  cases turn with
  | event =>
    obtain ⟨e, rest, hp, -⟩ := turn?_eq_event ht
    have hentry : (⟨past, m, .event⟩ : Action).dispatched? = some e := by
      simp [Action.dispatched?, hp]
    have hmem := Timeline.mem_of_pop hp
    unfold Action.Before
    rw [Action.time_of_dispatched hentry]
    refine (h.events e hmem).imp_right ?_
    rintro ⟨heq, e₀, he₀, horder⟩
    exact ⟨heq, Or.inr ⟨e₀, e, he₀, hentry, horder⟩⟩
  | mcu => exact h.mcu.imp_right fun ⟨heq, hlt⟩ => ⟨heq, Or.inl hlt⟩
  | main =>
    exact (h.main (turn?_eq_main ht).1).imp_right fun ⟨heq, hlt⟩ => ⟨heq, Or.inl hlt⟩

/-! ## Order -/

/-- The actions of a run are in order. -/
theorem pairwise_actions {target : UInt64} {past : List Machine} {s : Observed Machine}
    (hs : History past s.device) : (actions target past s).Pairwise Action.Before := by
  induction past, s using actions_induct target with
  | stop past s ht =>
    rw [actions_of_none ht]
    exact .nil
  | fail past s turn f t ht h =>
    rw [actions_of_error ht h]
    exact List.pairwise_singleton _ _
  | go past s turn t ht h ih =>
    rw [actions_of_ok ht h]
    refine List.pairwise_cons.2 ⟨fun b hb => ?_, ih (hs.move (.turn ht h))⟩
    -- All that the first action leaves to do comes after it, and stays so from turn to turn.
    have kept := forall_actions (fun _ s turn t hafter ht h =>
      After.effect hafter ht (effect_of_take ht h)) (after_self hs ht (effect_of_take ht h)) b hb
    exact kept.1.before kept.2

/-- A machine that has arrived at a time has nothing to do before it, even if it is stalled. -/
theorem arrived_of_runUntil {target : UInt64} {s s' : Observed Machine}
    (h : runUntil target s = .ok () s') :
    s'.device.now = target ∧ s'.device.CaughtUp target ∧ target ≤ s'.device.mainTime := by
  obtain ⟨t, ht, rfl⟩ := runUntil_eq_ok.1 h
  have hup := caughtUp_of_turns ht
  cases hs : t.device.isStalled with
  | false =>
    have hsame : (arrive target t.device).mainTime = t.device.mainTime := by
      simp [arrive, hs]
    have hmain := hup.main hs
    rw [← hsame] at hmain
    exact ⟨rfl, ⟨hup.events, hup.mcu, fun _ => hmain⟩, hmain⟩
  | true =>
    -- A stalled main unit is taken along to the target.
    have hmain : target ≤ (arrive target t.device).mainTime := by
      simp only [arrive, hs, if_true, UInt64.le_iff_toNat_le, toNat_max]
      exact Nat.le_max_right _ _
    exact ⟨rfl, ⟨hup.events, hup.mcu, fun _ => hmain⟩, hmain⟩

/-- Everything happens in time order. A run of a machine with a history takes the turns of its
actions one after the other and arrives; its actions are in order, they are turns of machines with
histories of their own, each event at the time of its entry, and their times lie between the present
and the target; and at the end the clock shows the target, and nothing is left to do before it. -/
theorem run_in_order {past : List Machine} {m : Machine} (hm : History past m) (target : UInt64)
    (log : Log) :
    runUntil target ⟨m, log⟩ =
        (do takeAll ((actions target past ⟨m, log⟩).map Action.turn)
            Op.update (arrive target) : Op Machine Unit) ⟨m, log⟩ ∧
      (actions target past ⟨m, log⟩).Pairwise Action.Before ∧
      (∀ a ∈ actions target past ⟨m, log⟩, History a.past a.machine ∧
        a.machine.turn? target = some a.turn ∧
        (a.turn = .event → ∃ e, a.dispatched? = some e ∧ a.time = e.time) ∧
        m.now ≤ a.time ∧ a.time < target) ∧
      ∀ s', runUntil target ⟨m, log⟩ = .ok () s' →
        s'.device.now = target ∧ s'.device.CaughtUp target ∧ target ≤ s'.device.mainTime := by
  refine ⟨?_, pairwise_actions hm, fun a ha => ?_, fun s' h => arrived_of_runUntil h⟩
  · exact bind_congr_run (turns_eq_takeAll target past ⟨m, log⟩)
  · obtain ⟨⟨hpast, hup⟩, ht⟩ := forall_actions
      (P := fun past m' => History past m' ∧ m'.CaughtUp m.now)
      (fun past s turn t hs ht h => ⟨hs.1.move (.turn ht h), hs.2.effect ht (effect_of_take ht h)⟩)
      (⟨hm, hm.caughtUp⟩ : _ ∧ _) a ha
    exact ⟨hpast, ht, Action.exists_dispatched ht, hup.le_turnTime ht, (due_of_turn? ht).target⟩

/-- A talker begins with its coprocessor, and does everything in time order while it speaks. -/
theorem talker_in_order :
    (actions 1000 [] ⟨talker, .fresh⟩).head? = some ⟨[], talker, .mcu⟩ ∧
      (actions 1000 [] ⟨talker, .fresh⟩).Pairwise Action.Before ∧
      ∀ s', runUntil 1000 ⟨talker, .fresh⟩ = .ok () s' → s'.device.CaughtUp 1000 := by
  have hm : History [] talker := .build _ _ _ _ _
  have hturn : talker.turn? 1000 = some .mcu := rfl
  obtain ⟨s, hs⟩ : ∃ s, take .mcu ⟨talker, .fresh⟩ = .ok () s := ⟨_, rfl⟩
  obtain ⟨-, horder, -, hend⟩ := run_in_order hm 1000 .fresh
  refine ⟨?_, horder, fun s' h => (hend s' h).2.1⟩
  have hfirst : actions 1000 [] ⟨talker, .fresh⟩ =
      ⟨[], talker, .mcu⟩ :: actions 1000 [talker] s :=
    actions_of_ok (s := ⟨talker, .fresh⟩) hturn hs
  rw [hfirst, List.head?_cons]

end CardComputer.Machine
