import CardComputer.Proofs.Machine.Stalls

/-!
# Stall safety

What a turn can do to a stall (`Machine.TurnSafe`): the main unit does not step while it is stalled,
each word that it gives to the speech unit begins one stall and schedules one completion if there is
a timer, and a stall is only ended by a completion that was scheduled during it. This holds of every
turn of a machine with a history (`Machine.stall_safety`); what a host does between the turns leaves
the stall control alone.
-/

namespace CardComputer.Machine

open Op

/-! ## Words -/

/-- A word is accepted: it begins the next stall, and if there is a timer it schedules a completion
of this stall, the only one, and nothing else. -/
structure Accepted (m : Machine) (word : UInt8) (m' : Machine) : Prop where
  /-- The main unit is stalled. -/
  stalled : m'.isStalled = true
  /-- The stall has the next number. -/
  number : m'.board.stall.generation.toNat = m.board.stall.generation.toNat + 1
  /-- Without a timer nothing is scheduled. -/
  untimed : m.timer = none → m'.timeline = m.timeline
  /-- With a timer a completion of the stall is scheduled. -/
  timed : ∀ timer, m.timer = some timer → ∃ e,
    e.event = .speechDone m'.board.stall.generation ∧
    e.time = addTime m'.mainTime (m.config.usToCycles (timer.duration m.timed word)) ∧
    e ∉ m.timeline.entries ∧
    (∀ x, x ∈ m'.timeline.entries ↔ x = e ∨ x ∈ m.timeline.entries) ∧
    ∀ x ∈ m'.timeline.entries, x.event = .speechDone m'.board.stall.generation → x = e

/-- What a turn can do to a stall. -/
structure TurnSafe (past : List Machine) (m : Machine) (turn : Turn) (m' : Machine) : Prop where
  /-- A stalled main unit does not step. -/
  gated : m.isStalled = true → turn ≠ .main ∧ m'.main = m.main
  /-- A word of the main unit is accepted. -/
  accepted : turn = .main → ∀ word, m.main.word? m.board = some word → Accepted m word m'
  /-- Nothing but a word begins a stall. -/
  begun : m.isStalled = false → m'.isStalled = true →
    turn = .main ∧ ∃ word, m.main.word? m.board = some word
  /-- Nothing but a word that is timed schedules a completion. -/
  scheduled : ∀ e ∈ m'.timeline.entries, e ∉ m.timeline.entries →
    ∀ generation, e.event = .speechDone generation →
      turn = .main ∧ m.timer.isSome = true ∧ ∃ word, m.main.word? m.board = some word
  /-- Nothing but a completion that was scheduled during a stall ends it. -/
  ended : m.isStalled = true → m'.isStalled = false →
    turn = .event ∧ ∃ e rest, m.timeline.pop? = some (e, rest) ∧
      e.event = .speechDone m.board.stall.generation ∧ ScheduledInStall past m e

/-- Without a word or a timer nothing is scheduled. -/
theorem Times.timeline_eq {m : Machine} {b : Board} {mainTime : UInt64} {timeline : Timeline}
    {timed : List UInt8} (h : m.Times b mainTime timeline timed)
    (hnone : b.playback = none ∨ m.timer = none) : timeline = m.timeline := by
  unfold Times at h
  split at h
  · rename_i word timer hword htimer
    rcases hnone with hnone | hnone
    · rw [hword] at hnone
      cases hnone
    · rw [htimer] at hnone
      cases hnone
  · exact h.1

/-- A word that the main unit gives to the speech unit in a step is accepted. -/
theorem Effect.accepted {m m' : Machine} {word : UInt8} (he : Effect m .main m')
    (sound : m.StallSound) (hreg : m.Regular) (running : m.isStalled = false)
    (hword : m.main.word? m.board = some word) : Accepted m word m' := by
  cases he with
  | main step counted later times =>
    rcases step.main_cases with ⟨hnone, -⟩ | ⟨word', hsome, ⟨hstalled, -⟩ |
      ⟨-, generation, hnext, rfl⟩⟩
    · rw [word?_setTime, hword] at hnone
      cases hnone
    · rw [isStalled, StallControl.isStalled] at running
      have hstalled : m.board.stall.state = .stalled := hstalled
      rw [hstalled] at running
      cases running
    · rw [word?_setTime, hword] at hsome
      obtain rfl := Option.some.inj hsome
      -- The word waits on the board, so a timer is asked for its time.
      refine ⟨rfl, hnext, fun htimer => times.timeline_eq (Or.inr htimer), fun timer htimer => ?_⟩
      unfold Times at times
      rw [htimer] at times
      obtain ⟨hscheduled, -⟩ := times
      refine ⟨_, rfl, rfl, fun hmem => ?_, fun x => Timeline.mem_schedule hscheduled,
        fun x hx hkind => ?_⟩
      · exact UInt64.lt_irrefl _ (hreg.orderly.fresh _ hmem)
      · -- A completion from before the step has the number of an earlier stall.
        rcases (Timeline.mem_schedule hscheduled).1 hx with rfl | hold
        · rfl
        · have hle := sound.completions x hold _ hkind
          rw [UInt64.le_iff_toNat_le] at hle
          have hnext : generation.toNat = m.board.stall.generation.toNat + 1 := hnext
          simp only [StallControl.begun] at hle
          omega

/-- A turn of the main unit without a word begins no stall and schedules nothing. -/
theorem Effect.of_mute {m m' : Machine} (he : Effect m .main m') (sound : m.StallSound)
    (hword : m.main.word? m.board = none) :
    m'.isStalled = m.isStalled ∧ m'.timeline = m.timeline := by
  cases he with
  | main step counted later times =>
    rcases step.main_cases with ⟨-, mailbox, rfl⟩ | ⟨word, hsome, -⟩
    · exact ⟨rfl, times.timeline_eq (Or.inl sound.playback)⟩
    · rw [word?_setTime, hword] at hsome
      cases hsome

/-- A turn of an event or the coprocessor begins no stall and schedules no completion. -/
theorem Effect.of_ne_main {m m' : Machine} {turn : Turn} (he : Effect m turn m')
    (hturn : turn ≠ .main) :
    (m'.isStalled = true → m.isStalled = true) ∧ m'.main = m.main ∧
      ∀ e ∈ m'.timeline.entries, e ∉ m.timeline.entries →
        ∀ generation, e.event ≠ .speechDone generation := by
  -- What was pending beside the event that happens is not new.
  have old {e x : Entry} {rest : Timeline} (next : m.timeline.pop? = some (e, rest))
      (hx : x ∈ rest.entries) (hnew : x ∉ m.timeline.entries) : False :=
    hnew (Timeline.mem_of_mem_rest next hx)
  cases he with
  | shift next kind period scheduled =>
    refine ⟨id, rfl, fun x hx hnew => ?_⟩
    rcases (Timeline.mem_schedule scheduled).1 hx with rfl | hx
    · nofun
    · exact (old next hx hnew).elim
  | tick next kind counted period scheduled =>
    refine ⟨id, rfl, fun x hx hnew => ?_⟩
    rcases (Timeline.mem_schedule scheduled).1 hx with rfl | hx
    · nofun
    · exact (old next hx hnew).elim
  | swipe next kind => exact ⟨id, rfl, fun x hx hnew => (old next hx hnew).elim⟩
  | key next kind => exact ⟨id, rfl, fun x hx hnew => (old next hx hnew).elim⟩
  | release next kind stalled counted =>
    exact ⟨fun _ => stalled, rfl, fun x hx hnew => (old next hx hnew).elim⟩
  | spurious next kind other => exact ⟨id, rfl, fun x hx hnew => (old next hx hnew).elim⟩
  | mcu step later =>
    have hstall := congrArg (StallControl.isStalled ∘ Board.Remote.stall) step.remote_eq
    exact ⟨fun h => hstall.symm.trans h, rfl, fun x hx hnew => (hnew hx).elim⟩
  | main step counted later times => exact (hturn rfl).elim

/-- Nothing but the completion of a stall ends it. -/
theorem Effect.of_ended {m m' : Machine} {turn : Turn} (he : Effect m turn m')
    (stalled : m.isStalled = true) (ended : m'.isStalled = false) (hturn : turn ≠ .main) :
    turn = .event ∧ ∃ e rest, m.timeline.pop? = some (e, rest) ∧
      e.event = .speechDone m.board.stall.generation := by
  have hne : m'.isStalled ≠ m.isStalled := by
    rw [stalled, ended]
    exact Bool.false_ne_true
  cases he with
  | release next kind stalled counted => exact ⟨rfl, _, _, next, kind⟩
  | mcu step later =>
    have hstall := congrArg (StallControl.isStalled ∘ Board.Remote.stall) step.remote_eq
    exact (hne hstall).elim
  | main step counted later times => exact (hturn rfl).elim
  | _ => exact (hne rfl).elim

/-! ## Safety -/

/-- Every turn of a machine with a history is safe. -/
theorem History.turnSafe {past : List Machine} {m m' : Machine} {target : UInt64} {turn : Turn}
    (hm : History past m) (ht : m.turn? target = some turn) (he : Effect m turn m') :
    TurnSafe past m turn m' := by
  have sound := hm.stallSound
  by_cases hturn : turn = .main
  · subst hturn
    -- The main unit has a turn only if it is not stalled.
    have running := (turn?_eq_main ht).1
    refine ⟨fun h => ?_, fun _ word hword => he.accepted sound hm.regular running hword,
      fun _ h' => ⟨rfl, ?_⟩, fun e hmem hnew generation hkind => ⟨rfl, ?_⟩, fun h => ?_⟩
    · rw [running] at h
      cases h
    · cases hword : m.main.word? m.board with
      | some word => exact ⟨word, rfl⟩
      | none =>
        rw [(he.of_mute sound hword).1, running] at h'
        cases h'
    · cases hword : m.main.word? m.board with
      | none =>
        rw [(he.of_mute sound hword).2] at hmem
        exact absurd hmem hnew
      | some word =>
        cases htimer : m.timer with
        | some timer => exact ⟨rfl, word, rfl⟩
        | none =>
          rw [(he.accepted sound hm.regular running hword).untimed htimer] at hmem
          exact absurd hmem hnew
    · rw [running] at h
      cases h
  · obtain ⟨hstall, hmain, hscheduled⟩ := he.of_ne_main hturn
    refine ⟨fun _ => ⟨hturn, hmain⟩, fun h => absurd h hturn, fun h h' => ?_,
      fun e hmem hnew generation hkind => ?_, fun h h' => ?_⟩
    · rw [hstall h'] at h
      cases h
    · exact absurd hkind (hscheduled e hmem hnew generation)
    · obtain ⟨hevent, e, rest, hp, hkind⟩ := he.of_ended h h' hturn
      have hmem := Timeline.mem_of_pop hp
      exact ⟨hevent, e, rest, hp, hkind, hm.scheduledInStall hmem h hkind⟩

/-- A request leaves the stall control alone. -/
theorem stall_of_request {r : Request} {s s' : Observed Machine} (h : r.perform s = .ok () s') :
    s'.device.board.stall = s.device.board.stall := by
  have fulfilled := fulfilled_of_perform h
  generalize s'.device = m' at fulfilled ⊢
  cases fulfilled with
  | install timer => rfl
  | pressReset => rfl
  | posted posts scheduled => rfl

/-- A word during a stall is dropped. -/
theorem board_of_dropped {m : Machine} {word : UInt8} {log : Log} {s' : Observed Board}
    (stalled : m.isStalled = true) (h : Board.speak word ⟨m.board, log⟩ = .ok () s') :
    s'.device = m.board := by
  rcases Board.speak_ok h with ⟨-, hsame⟩ | ⟨hrunning, -⟩
  · exact hsame
  · rw [isStalled_of_running hrunning] at stalled
    cases stalled

/-- Stalls are safe. Of every machine with a history the stall control is sound and its stalls were
ended once each; every turn is safe; and neither a request nor the end of a run changes the stall
control, nor does a word that is dropped change the board. -/
theorem stall_safety {past : List Machine} {m : Machine} (hm : History past m) :
    m.StallSound ∧ Tally past m ∧
      (∀ target turn log log' m', m.turn? target = some turn →
        take turn ⟨m, log⟩ = .ok () ⟨m', log'⟩ → TurnSafe past m turn m') ∧
      (∀ (r : Request) log log' m', r.perform ⟨m, log⟩ = .ok () ⟨m', log'⟩ →
        m'.board.stall = m.board.stall) ∧
      (∀ target, (arrive target m).board.stall = m.board.stall) ∧
      ∀ word log s', m.isStalled = true → Board.speak word ⟨m.board, log⟩ = .ok () s' →
        s'.device = m.board := by
  refine ⟨hm.stallSound, hm.tally, ?_, ?_, fun target => rfl, ?_⟩
  · intro target turn log log' m' ht h
    exact hm.turnSafe ht (effect_of_take (s := ⟨m, log⟩) ht h)
  · intro r log log' m' h
    exact stall_of_request h
  · intro word log s' stalled h
    exact board_of_dropped stalled h

/-- The second turn of a talker stalls it. -/
theorem talker_stalls : ∃ s t, take .mcu ⟨talker, .fresh⟩ = .ok () s ∧
    s.device.turn? 1 = some .main ∧ take .main s = .ok () t ∧ t.device.isStalled = true := by
  obtain ⟨s, hs⟩ : ∃ s, take .mcu ⟨talker, .fresh⟩ = .ok () s := ⟨_, rfl⟩
  have second : match take .mcu ⟨talker, .fresh⟩ with
    | .ok () s => s.device.turn? 1 = some .main ∧ match take .main s with
      | .ok () t => t.device.isStalled = true
      | .error _ _ => False
    | .error _ _ => False := ⟨rfl, rfl⟩
  rw [hs] at second
  obtain ⟨ht, hmain⟩ := second
  cases h : take .main s with
  | ok _ t =>
    rw [h] at hmain
    exact ⟨s, t, hs, ht, h, hmain⟩
  | error f t =>
    rw [h] at hmain
    cases hmain

/-- The turn in which a talker is stalled is safe. -/
theorem talker_stall_safe : ∃ s t, take .mcu ⟨talker, .fresh⟩ = .ok () s ∧
    take .main s = .ok () t ∧ t.device.isStalled = true ∧
    TurnSafe [talker] s.device .main t.device := by
  obtain ⟨s, t, hs, ht, hmain, hstalled⟩ := talker_stalls
  have hm : History [] talker := .build _ _ _ _ _
  have hfirst : talker.turn? 1 = some .mcu := rfl
  obtain ⟨-, -, hsafe, -⟩ := stall_safety (hm.move (.turn hfirst hs))
  exact ⟨s, t, hs, hmain, hstalled, hsafe 1 .main s.log t.log t.device ht hmain⟩

end CardComputer.Machine
