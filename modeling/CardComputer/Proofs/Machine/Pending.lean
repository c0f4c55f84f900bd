import CardComputer.Proofs.Machine.CaughtUp
import CardComputer.Proofs.Machine.Saving

/-!
# Pending events

A step puts new events on the timeline under the next number only (`Machine.Step.mem_entries`). How
long an event has been pending is read off the history of the machine (`Machine.waited`), and the
numbers of events agree with it (`Machine.History.scheduledBefore`): a lesser number means that an
event was scheduled before. Nothing that is pending is late (`Machine.History.caughtUp`).
-/

namespace CardComputer.Machine

/-! ## New events -/

/-- An event is new: it has the next number of the machine before the step, and as a completion it
is that of the current stall of the machine after it. -/
structure New (m m' : Machine) (e : Entry) : Prop where
  /-- It has the next number. -/
  seq : e.seq = m.timeline.nextSeq
  /-- As a completion it belongs to the current stall. -/
  completion : ∀ generation, e.event = .speechDone generation →
    generation = m'.board.stall.generation

/-- What a turn leaves pending was pending before or is new. -/
theorem Effect.mem_entries {m m' : Machine} {turn : Turn} (he : Effect m turn m') :
    ∀ e ∈ m'.timeline.entries, e ∈ m.timeline.entries ∨ New m m' e := by
  intro x hx
  cases he with
  | shift next kind period scheduled =>
    rcases (Timeline.mem_schedule scheduled).1 hx with rfl | h
    · exact Or.inr ⟨(Timeline.pop?_eq_some.1 next).2.symm, nofun⟩
    · exact Or.inl (Timeline.mem_of_mem_rest next h)
  | tick next kind counted period scheduled =>
    rcases (Timeline.mem_schedule scheduled).1 hx with rfl | h
    · exact Or.inr ⟨(Timeline.pop?_eq_some.1 next).2.symm, nofun⟩
    · exact Or.inl (Timeline.mem_of_mem_rest next h)
  | swipe next kind => exact Or.inl (Timeline.mem_of_mem_rest next hx)
  | key next kind => exact Or.inl (Timeline.mem_of_mem_rest next hx)
  | release next kind stalled counted => exact Or.inl (Timeline.mem_of_mem_rest next hx)
  | spurious next kind other => exact Or.inl (Timeline.mem_of_mem_rest next hx)
  | mcu step later => exact Or.inl hx
  | main step counted later times =>
    -- Only a word that is timed schedules something in a step.
    rcases times.mem_entries x hx with h | ⟨-, hseq, hkind⟩
    · exact Or.inl h
    · refine Or.inr ⟨hseq, fun generation h => ?_⟩
      rw [hkind] at h
      cases h
      rfl

/-- What a step leaves pending was pending before or is new. -/
theorem Step.mem_entries {m m' : Machine} (hs : Step m m') :
    ∀ e ∈ m'.timeline.entries, e ∈ m.timeline.entries ∨ New m m' e := by
  intro x hx
  cases hs with
  | install timer => exact Or.inl hx
  | button => exact Or.inl hx
  | @post event timeline posted scheduled =>
    rcases (Timeline.mem_schedule scheduled).1 hx with rfl | h
    · refine Or.inr ⟨rfl, ?_⟩
      rintro generation rfl
      exact posted
    · exact Or.inl h
  | turn ht effect => exact effect.mem_entries x hx
  | arrive ht => exact Or.inl hx

/-! ## Waiting -/

/-- In how many of the states of a machine, the latest first, an entry has been pending. -/
def waited (e : Entry) : List Machine → Nat
  | [] => 0
  | m :: past => if e ∈ m.timeline.entries then waited e past + 1 else 0

theorem waited_of_mem {e : Entry} {m : Machine} (past : List Machine)
    (h : e ∈ m.timeline.entries) : waited e (m :: past) = waited e past + 1 :=
  if_pos h

theorem waited_of_not_mem {e : Entry} {m : Machine} (past : List Machine)
    (h : e ∉ m.timeline.entries) : waited e (m :: past) = 0 :=
  if_neg h

/-- How long an entry has waited depends on the entries of a machine only. -/
theorem waited_congr {m m' : Machine} (past : List Machine)
    (h : m'.timeline.entries = m.timeline.entries) (e : Entry) :
    waited e (m' :: past) = waited e (m :: past) := by
  unfold waited
  rw [h]

/-- The number of a new event is greater than those of the pending ones. -/
theorem Regular.lt_of_new {m m' : Machine} {e x : Entry} (h : m.Regular) (new : New m m' e)
    (hx : x ∈ m.timeline.entries) : x.seq < e.seq := by
  rw [new.seq]
  exact h.orderly.fresh x hx

/-- A new event was not pending before. -/
theorem Regular.not_mem_of_new {m m' : Machine} {e : Entry} (h : m.Regular) (new : New m m' e) :
    e ∉ m.timeline.entries := by
  intro he
  exact UInt64.lt_irrefl _ (h.lt_of_new new he)

/-- Of two entries the first was scheduled before the second: it has the lesser number and has been
pending for longer, unless both have been pending since power-on. -/
def ScheduledBefore (states : List Machine) (e e' : Entry) : Prop :=
  e.seq < e'.seq ∧ (waited e' states < waited e states ∨
    waited e' states = states.length ∧ waited e states = states.length)

/-- At power-on all pending events have been pending since power-on. -/
theorem scheduledBefore_powerOn {m : Machine} {e e' : Entry} (he : e ∈ m.timeline.entries)
    (he' : e' ∈ m.timeline.entries) (hlt : e.seq < e'.seq) : ScheduledBefore [m] e e' :=
  ⟨hlt, Or.inr ⟨waited_of_mem [] he', waited_of_mem [] he⟩⟩

/-- Of two pending events the one with the lesser number was scheduled before the other. -/
theorem History.scheduledBefore {past : List Machine} {m : Machine} (h : History past m)
    {e e' : Entry} (he : e ∈ m.timeline.entries) (he' : e' ∈ m.timeline.entries)
    (hlt : e.seq < e'.seq) : ScheduledBefore (m :: past) e e' := by
  induction h with
  | build config valid main mcu timer => exact scheduledBefore_powerOn he he' hlt
  | @move past m m' before hmove ih =>
    -- What is still pending has waited one state more, and what is new has not waited.
    have hreg := before.regular
    have hstep := hmove.step
    refine ⟨hlt, ?_⟩
    rw [waited_of_mem _ he, waited_of_mem _ he', List.length_cons]
    rcases hstep.mem_entries e he with hold | hnew
    · rcases hstep.mem_entries e' he' with hold' | hnew'
      · have hbefore := (ih hold hold').2
        omega
      · -- The second one was scheduled just now.
        rw [waited_of_not_mem _ (hreg.not_mem_of_new hnew'), waited_of_mem _ hold]
        omega
    · -- The number of the first one is the greatest that was given out.
      exfalso
      rcases hstep.mem_entries e' he' with hold' | hnew'
      · have hgt := hreg.lt_of_new hnew hold'
        rw [UInt64.lt_iff_toNat_lt] at hlt hgt
        omega
      · rw [hnew.seq, hnew'.seq] at hlt
        exact UInt64.lt_irrefl _ hlt
  | reset before ih => exact scheduledBefore_powerOn he he' hlt
  | load before origin hload ih ih' =>
    have hsame := origin.regular.entries_of_load hload
    have hbefore := ih' (hsame ▸ he) (hsame ▸ he')
    unfold ScheduledBefore at hbefore ⊢
    rw [waited_congr _ hsame, waited_congr _ hsame]
    exact hbefore

/-! ## Being on time -/

/-- A step leaves a machine that has caught up with the time on its clock. -/
theorem CaughtUp.step {m m' : Machine} (h : m.CaughtUp m.now) (hs : Step m m') :
    m'.CaughtUp m'.now := by
  cases hs with
  | install timer => exact ⟨h.events, h.mcu, h.main⟩
  | button => exact ⟨h.events, h.mcu, h.main⟩
  | post posted scheduled =>
    refine ⟨fun e he => ?_, h.mcu, h.main⟩
    rcases (Timeline.mem_schedule scheduled).1 he with rfl | he
    · exact UInt64.le_refl _
    · exact h.events e he
  | turn ht effect =>
    rw [effect.timing.now]
    exact (caughtUp_turnTime ht).effect ht effect
  | arrive ht =>
    have hup := turn?_eq_none.1 ht
    refine ⟨hup.events, hup.mcu, fun hs => ?_⟩
    have hs : m.isStalled = false := hs
    show _ ≤ if m.isStalled then _ else m.mainTime
    rw [hs, if_neg Bool.false_ne_true]
    exact hup.main hs

/-- A machine that was just switched on has caught up. -/
theorem caughtUp_zero (m : Machine) : m.CaughtUp 0 :=
  ⟨fun _ _ => UInt64.zero_le, UInt64.zero_le, fun _ => UInt64.zero_le⟩

/-- Every machine with a history has caught up with the time on its clock. -/
theorem History.caughtUp {past : List Machine} {m : Machine} (h : History past m) :
    m.CaughtUp m.now := by
  induction h with
  | build config valid main mcu timer => exact caughtUp_zero _
  | move before hmove ih => exact ih.step hmove.step
  | reset before ih => exact caughtUp_zero _
  | load before origin hload ih ih' =>
    obtain ⟨-, timeline, hentries, -, -, rfl⟩ := origin.regular.of_load hload
    exact ⟨fun e he => ih'.events e (hentries ▸ he), ih'.mcu, ih'.main⟩

end CardComputer.Machine
