import CardComputer.Proofs.Machine.Pending

/-!
# Stalls

How a step changes the stall control (`Machine.Step.stallChange`): a stall is begun by a word of the
main unit and ended by its own completion. So the stall control of every machine with a history is
sound (`Machine.History.stallSound`), its stalls end in the order of their numbers, each once
(`Machine.History.tally`), and a completion that can end the current stall was scheduled during that
stall (`Machine.History.scheduledInStall`).
-/

namespace CardComputer.Machine

/-! ## Changes -/

/-- How the stall control changes. -/
inductive StallChange (m m' : Machine) : Prop
  /-- Only the cycles of the main unit are counted. -/
  | kept {gatedCycles : UInt64} (after : m'.board.stall = { m.board.stall with gatedCycles })
  /-- The main unit gives the speech unit a word, and the next stall begins. -/
  | begun {word : UInt8} {generation gatedCycles : UInt64} (running : m.isStalled = false)
    (spoken : m.main.word? m.board = some word)
    (counted : generation.toNat = m.board.stall.generation.toNat + 1)
    (after : m'.board.stall = { m.board.stall.begun generation with gatedCycles })
  /-- The completion of the current stall happens, and the stall ends. -/
  | ended {e : Entry} {rest : Timeline} {stalls : UInt64} (stalled : m.isStalled = true)
    (next : m.timeline.pop? = some (e, rest))
    (kind : e.event = .speechDone m.board.stall.generation)
    (counted : stalls.toNat = m.board.stall.stalls.toNat + 1)
    (after : m'.board.stall = m.board.stall.ended stalls)

/-- The clock of the board does not decide whether the main unit gives the speech unit a word. -/
theorem word?_setTime (p : Processor) (b : Board) (time : UInt64) :
    p.word? (b.setTime time) = p.word? b := rfl

/-- The stall control says whether a machine is stalled. -/
theorem isStalled_of_stall {m : Machine} {c : StallControl} (h : m.board.stall = c) :
    m.isStalled = c.isStalled :=
  congrArg StallControl.isStalled h

/-- A running main unit is not stalled. -/
theorem isStalled_of_running {m : Machine} (h : m.board.stall.state = .running) :
    m.isStalled = false := by
  simp [isStalled, StallControl.isStalled, h]

/-- A turn changes the stall control in one of these ways. -/
theorem Effect.stallChange {m m' : Machine} {turn : Turn} (he : Effect m turn m') :
    StallChange m m' := by
  cases he with
  | shift => exact .kept rfl
  | tick => exact .kept rfl
  | swipe => exact .kept rfl
  | key => exact .kept rfl
  | release next kind stalled counted => exact .ended stalled next kind counted rfl
  | spurious => exact .kept rfl
  | mcu step later =>
    exact .kept (congrArg Board.Remote.stall step.remote_eq)
  | main step counted later times =>
    rcases step.main_cases with ⟨-, mailbox, rfl⟩ | ⟨word, hword, ⟨-, rfl⟩ |
      ⟨hrunning, generation, hnext, rfl⟩⟩
    · exact .kept rfl
    · exact .kept rfl
    · rw [word?_setTime] at hword
      exact .begun (isStalled_of_running hrunning) hword hnext rfl

/-- A step changes the stall control in one of these ways. -/
theorem Step.stallChange {m m' : Machine} (hs : Step m m') : StallChange m m' := by
  cases hs with
  | install timer => exact .kept rfl
  | button => exact .kept rfl
  | post posted scheduled => exact .kept rfl
  | turn ht effect => exact effect.stallChange
  | arrive ht => exact .kept rfl

/-- If no word waits to be timed, none does after a step. -/
theorem Step.playback_eq_none {m m' : Machine} (hs : Step m m') (h : m.board.playback = none) :
    m'.board.playback = none := by
  cases hs with
  | install timer => exact h
  | button => exact h
  | post posted scheduled => exact h
  | turn ht effect =>
    cases effect with
    | mcu step later => exact (congrArg Board.Remote.playback step.remote_eq).trans h
    | main step counted later times => rfl
    | _ => exact h
  | arrive ht => exact h

theorem Step.config_eq {m m' : Machine} (hs : Step m m') : m'.config = m.config := by
  cases hs with
  | turn ht effect => exact effect.config_eq
  | _ => rfl

/-! ## Soundness -/

/-- No completion is pending at power-on. -/
theorem not_completion_of_powerOn {c : Config} {e : Entry} (he : e ∈ (powerOnTimeline c).entries)
    (generation : UInt64) : e.event ≠ .speechDone generation := by
  rcases mem_powerOnTimeline.1 he with rfl | rfl
  · nofun
  · nofun

/-- What is true of the stall control of a machine wherever its host has brought it. -/
structure StallSound (m : Machine) : Prop where
  /-- A stall has an owner. -/
  owner : m.board.stall.owner.isSome = m.isStalled
  /-- All stalls but the current one were ended. -/
  generation : m.board.stall.generation.toNat =
    m.board.stall.stalls.toNat + if m.isStalled then 1 else 0
  /-- No completion is that of a later stall. -/
  completions : ∀ e ∈ m.timeline.entries, ∀ generation, e.event = .speechDone generation →
    generation ≤ m.board.stall.generation
  /-- No word waits to be timed. -/
  playback : m.board.playback = none
  /-- Without speech there are no stalls. -/
  silent : m.config.model.hasSpeech = false →
    m.isStalled = false ∧ m.board.stall.generation = 0

/-- The numbers of stalls do not decrease. -/
theorem StallChange.generation_le {m m' : Machine} (h : StallChange m m') :
    m.board.stall.generation ≤ m'.board.stall.generation := by
  cases h with
  | kept after =>
    rw [after]
    exact UInt64.le_refl _
  | begun running spoken counted after =>
    rw [after, UInt64.le_iff_toNat_le]
    simp only [StallControl.begun]
    omega
  | ended stalled next kind counted after =>
    rw [after]
    exact UInt64.le_refl _

/-- If no completion is that of a later stall, none is after a step. -/
theorem Step.completions_le {m m' : Machine} (hs : Step m m')
    (h : ∀ e ∈ m.timeline.entries, ∀ generation, e.event = .speechDone generation →
      generation ≤ m.board.stall.generation) :
    ∀ e ∈ m'.timeline.entries, ∀ generation, e.event = .speechDone generation →
      generation ≤ m'.board.stall.generation := by
  intro e he generation hkind
  rcases hs.mem_entries e he with hold | hnew
  · exact UInt64.le_trans (h e hold generation hkind) hs.stallChange.generation_le
  · -- A completion that is new has the number of the current stall.
    exact UInt64.le_of_eq (hnew.completion generation hkind)

/-- Without speech the main unit gives the speech unit no word. -/
theorem word?_of_silent {m : Machine} (p : Processor)
    (h : m.board.model.hasSpeech = false) : p.word? m.board = none := by
  have silent (address : UInt16) : m.board.answersAt address = false := by
    simp [Board.answersAt, h]
  unfold Processor.word?
  cases p.fetch.1 with
  | none => rfl
  | some i =>
    cases ha : i.access with
    | store address value => simp [Access.word?, ha, silent]
    | _ => simp [Access.word?, ha]

/-- A step leaves the stall control sound. -/
theorem StallSound.step {m m' : Machine} (h : m.StallSound) (hreg : m.Regular) (hs : Step m m') :
    m'.StallSound := by
  have change := hs.stallChange
  have completions := hs.completions_le h.completions
  have playback := hs.playback_eq_none h.playback
  have number := h.generation
  cases change with
  | kept after =>
    have hstalled : m'.isStalled = m.isStalled := (isStalled_of_stall after).trans rfl
    refine ⟨?_, ?_, completions, playback, ?_⟩
    · rw [hstalled, after]
      exact h.owner
    · rw [hstalled, after]
      exact number
    · rw [hs.config_eq, hstalled, after]
      exact h.silent
  | begun running spoken counted after =>
    have hstalled : m'.isStalled = true := isStalled_of_stall after
    refine ⟨?_, ?_, completions, playback, fun hsilent => ?_⟩
    · rw [hstalled, after]
      rfl
    · rw [running, if_neg Bool.false_ne_true] at number
      rw [hstalled, if_pos rfl, after]
      simp only [StallControl.begun]
      omega
    · rw [hs.config_eq, ← hreg.model] at hsilent
      rw [word?_of_silent _ hsilent] at spoken
      cases spoken
  | ended stalled next kind counted after =>
    have hstalled : m'.isStalled = false := isStalled_of_stall after
    refine ⟨?_, ?_, completions, playback, fun hsilent => ?_⟩
    · rw [hstalled, after]
      rfl
    · rw [stalled, if_pos rfl] at number
      rw [hstalled, if_neg Bool.false_ne_true, after]
      simp only [StallControl.ended]
      omega
    · rw [hs.config_eq] at hsilent
      rw [(h.silent hsilent).1] at stalled
      cases stalled

/-- At power-on the stall control is sound. -/
theorem stallSound_powerOn {m : Machine} (stall : m.board.stall = .fresh)
    (playback : m.board.playback = none) (timeline : m.timeline = powerOnTimeline m.config) :
    m.StallSound := by
  have hrunning : m.isStalled = false := isStalled_of_stall stall
  refine ⟨?_, ?_, fun e he generation hkind => ?_, playback, fun _ => ⟨hrunning, ?_⟩⟩
  · rw [hrunning, stall]
    rfl
  · rw [hrunning, stall]
    rfl
  · exact absurd hkind (not_completion_of_powerOn (timeline ▸ he) generation)
  · rw [stall]
    rfl

/-- The stall control of every machine with a history is sound. -/
theorem History.stallSound {past : List Machine} {m : Machine} (h : History past m) :
    m.StallSound := by
  induction h with
  | build config valid main mcu timer => exact stallSound_powerOn rfl rfl rfl
  | move before hmove ih => exact ih.step before.regular hmove.step
  | reset before ih => exact stallSound_powerOn rfl rfl rfl
  | load before origin hload ih ih' =>
    obtain ⟨hcan, timeline, hentries, -, -, rfl⟩ := origin.regular.of_load hload
    refine ⟨ih'.owner, ih'.generation, fun e he => ih'.completions e (hentries ▸ he), ih'.playback,
      fun hsilent => ih'.silent ?_⟩
    rw [hcan.1]
    exact hsilent

/-! ## The ends of stalls -/

/-- The numbers of the stalls that ended in the states of a machine, the latest first. -/
def endings : List Machine → List UInt64
  | m' :: m :: past =>
    if m.isStalled && !m'.isStalled then m.board.stall.generation :: endings (m :: past)
    else endings (m :: past)
  | _ => []

/-- Without a stall before the present one none ended. -/
theorem endings_of_kept {m m' : Machine} (past : List Machine)
    (h : m.isStalled = false ∨ m'.isStalled = true) :
    endings (m' :: m :: past) = endings (m :: past) := by
  rw [endings, if_neg]
  rcases h with h | h
  · simp [h]
  · simp [h]

/-- The end of a stall is noted. -/
theorem endings_of_ended {m m' : Machine} (past : List Machine) (h : m.isStalled = true)
    (h' : m'.isStalled = false) :
    endings (m' :: m :: past) = m.board.stall.generation :: endings (m :: past) := by
  rw [endings, if_pos]
  simp [h, h']

/-- Which stalls ended depends on whether a machine is stalled only. -/
theorem endings_congr {m m' : Machine} (past : List Machine) (h : m'.isStalled = m.isStalled) :
    endings (m' :: past) = endings (m :: past) := by
  cases past with
  | nil => rfl
  | cons x past => rw [endings, endings, h]

/-- The stalls ended in the order of their numbers, each once, and were counted; the current one is
not among them. -/
structure Tally (past : List Machine) (m : Machine) : Prop where
  /-- The latest has the greatest number. -/
  order : (endings (m :: past)).Pairwise (· > ·)
  /-- The numbers were given out, that of the current stall aside. -/
  given : ∀ g ∈ endings (m :: past),
    g.toNat + (if m.isStalled then 1 else 0) ≤ m.board.stall.generation.toNat
  /-- They were counted. -/
  count : (endings (m :: past)).length = m.board.stall.stalls.toNat

/-- A change of the stall control keeps the tally. -/
theorem Tally.change {past : List Machine} {m m' : Machine} (h : Tally past m)
    (change : StallChange m m') : Tally (m :: past) m' := by
  cases change with
  | kept after =>
    have hstalled : m'.isStalled = m.isStalled := (isStalled_of_stall after).trans rfl
    have hendings : endings (m' :: m :: past) = endings (m :: past) := by
      refine endings_of_kept past ?_
      rw [hstalled]
      cases m.isStalled with
      | false => exact Or.inl rfl
      | true => exact Or.inr rfl
    refine ⟨?_, ?_, ?_⟩
    · rw [hendings]
      exact h.order
    · rw [hendings, hstalled, after]
      exact h.given
    · rw [hendings, after]
      exact h.count
  | begun running spoken counted after =>
    have hstalled : m'.isStalled = true := isStalled_of_stall after
    have hendings := endings_of_kept past (Or.inl running : _ ∨ m'.isStalled = true)
    refine ⟨?_, ?_, ?_⟩
    · rw [hendings]
      exact h.order
    · rw [hendings, hstalled, if_pos rfl, after]
      intro g hg
      have hle := h.given g hg
      simp only [StallControl.begun]
      omega
    · rw [hendings, after]
      exact h.count
  | ended stalled next kind counted after =>
    have hstalled : m'.isStalled = false := isStalled_of_stall after
    -- The stall that ends is the current one, and its number is greater than all before.
    have hendings := endings_of_ended past stalled hstalled
    have given := h.given
    rw [stalled, if_pos rfl] at given
    refine ⟨?_, ?_, ?_⟩
    · rw [hendings]
      refine List.pairwise_cons.2 ⟨fun g hg => ?_, h.order⟩
      have hlt := given g hg
      rw [gt_iff_lt, UInt64.lt_iff_toNat_lt]
      omega
    · rw [hendings, hstalled, if_neg Bool.false_ne_true, after]
      intro g hg
      simp only [StallControl.ended]
      rcases List.mem_cons.1 hg with rfl | hg
      · omega
      · have hlt := given g hg
        omega
    · rw [hendings, after, List.length_cons, h.count]
      exact counted.symm

/-- The stalls of every machine with a history are tallied. -/
theorem History.tally {past : List Machine} {m : Machine} (h : History past m) : Tally past m := by
  induction h with
  | build config valid main mcu timer => exact ⟨.nil, nofun, rfl⟩
  | move before hmove ih => exact ih.change hmove.step.stallChange
  | reset before ih => exact ⟨.nil, nofun, rfl⟩
  | @load past past' m m' saved log log' before origin hload ih ih' =>
    -- The tally of the machine that was saved goes on.
    have hboard := origin.regular.board_of_load hload
    have hstalled : m'.isStalled = saved.isStalled := by rw [isStalled, isStalled, hboard]
    have hendings := endings_congr past' hstalled
    refine ⟨?_, ?_, ?_⟩
    · rw [hendings]
      exact ih'.order
    · rw [hendings, hstalled, hboard]
      exact ih'.given
    · rw [hendings, hboard]
      exact ih'.count

/-! ## Completions -/

/-- An entry was scheduled during the current stall: the machine was in this stall whenever the
entry was pending, and there was a time before that. -/
structure ScheduledInStall (past : List Machine) (m : Machine) (e : Entry) : Prop where
  pending : e ∈ m.timeline.entries
  stalled : m.isStalled = true
  /-- The entry was not pending since power-on. -/
  scheduled : waited e past < past.length
  /-- The machine was in the same stall in all states in which the entry was pending. -/
  stall : ∀ x ∈ past.take (waited e past),
    x.isStalled = true ∧ x.board.stall.generation = m.board.stall.generation

/-- A pending completion of the current stall was scheduled during it. -/
theorem History.scheduledInStall {past : List Machine} {m : Machine} (h : History past m)
    {e : Entry} (he : e ∈ m.timeline.entries) (stalled : m.isStalled = true)
    (kind : e.event = .speechDone m.board.stall.generation) : ScheduledInStall past m e := by
  induction h with
  | build config valid main mcu timer => cases stalled
  | @move past m m' before hmove ih =>
    rcases hmove.step.mem_entries e he with hold | hnew
    · -- The stall began before the entry was scheduled.
      have same : m.isStalled = true ∧
          m'.board.stall.generation = m.board.stall.generation := by
        cases hmove.step.stallChange with
        | kept after =>
          refine ⟨?_, by rw [after]⟩
          rw [isStalled_of_stall after] at stalled
          exact stalled
        | begun running spoken counted after =>
          have hle := before.stallSound.completions e hold _ kind
          rw [after, UInt64.le_iff_toNat_le] at hle
          simp only [StallControl.begun] at hle
          omega
        | ended stalled' next kind' counted after =>
          rw [isStalled_of_stall after] at stalled
          cases stalled
      -- One more state, in which the machine was in this stall.
      have hbefore := ih hold same.1 (same.2 ▸ kind)
      refine ⟨he, stalled, ?_, ?_⟩
      · rw [waited_of_mem _ hold, List.length_cons]
        exact Nat.succ_lt_succ hbefore.scheduled
      · rw [waited_of_mem _ hold, List.take_succ_cons, same.2]
        intro x hx
        rcases List.mem_cons.1 hx with rfl | hx
        · exact ⟨same.1, rfl⟩
        · exact hbefore.stall x hx
    · have hwaited := waited_of_not_mem past (before.regular.not_mem_of_new hnew)
      refine ⟨he, stalled, ?_, ?_⟩
      · rw [hwaited]
        exact Nat.succ_pos _
      · rw [hwaited, List.take_zero]
        intro x hx
        cases hx
  | reset before ih => cases stalled
  | load before origin hload ih ih' =>
    obtain ⟨-, timeline, hentries, -, -, rfl⟩ := origin.regular.of_load hload
    have hsaved := ih' (hentries ▸ he) stalled kind
    exact ⟨he, stalled, hsaved.scheduled, hsaved.stall⟩

end CardComputer.Machine
