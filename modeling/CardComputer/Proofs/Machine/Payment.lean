import CardComputer.Proofs.Machine.Journal
import CardComputer.Proofs.Machine.Periodic
import CardComputer.Proofs.Machine.Room
import CardComputer.Proofs.Machine.Side

/-!
# What turns give out

A turn adds to the counters of a machine: it may give out the number of an event or of a stall, and
the cycles of the main unit are counted. Whatever it adds is paid for by a clock that goes on
(`Machine.Effect.paid`): by the clock of a periodic event, which goes on by its period, or by the
time of the main unit, which goes on by a step. So no counter outruns the clocks, however the turns
are divided into runs.
-/

namespace CardComputer

open Op

/-! ## Paced processors -/

namespace Processor

/-- Every step of the processor takes four cycles. -/
def Paced (p : Processor) : Prop :=
  ∀ i ∈ p.script, i.cycles = 4

theorem Paced.nextCycles_eq {p : Processor} (h : p.Paced) : p.nextCycles = 4 := by
  unfold nextCycles
  split
  · rename_i i hi
    rw [h i (mem_script_of_fetch hi)]
    decide
  · rfl

/-- A step leaves the script as it is. -/
theorem Step.script_eq {bus : Bus Board} {p p' : Processor} {b b' : Board} {cycles : UInt32}
    (h : p.Step bus b p' b' cycles) : p'.script = p.script := by
  have hscript := p.fetch_eq.1
  cases h with
  | idle fetch =>
    rw [fetch] at hscript
    exact hscript
  | access fetch performed =>
    rw [fetch] at hscript
    exact hscript

end Processor

/-- A periodic event that is scheduled anew takes a number, and its time goes on by its period. -/
theorem Timeline.numbers_of_period {t t' rest : Timeline} {e : Entry} {due : UInt64}
    {event : Event} {period : ℕ} (next : t.pop? = some (e, rest)) (kind : e.event = event)
    (pos : 0 < period) (later : due.toNat = e.time.toNat + period)
    (scheduled : rest.schedule due event = .ok t') :
    t'.nextSeq.toNat + t.pendingTime (· = event) ≤
      t.nextSeq.toNat + t'.pendingTime (· = event) := by
  have same := congrArg UInt64.toNat (pop?_eq_some.1 next).2
  have number := (schedule_eq_ok.1 scheduled).2
  have taken : t.pendingTime (· = event) = e.time.toNat + rest.pendingTime (· = event) :=
    pendingTime_pop next (decide_eq_true kind)
  have put : t'.pendingTime (· = event) = due.toNat + rest.pendingTime (· = event) :=
    pendingTime_schedule scheduled (decide_eq_true rfl)
  omega

/-- It leaves the times of the other events as they are. -/
theorem Timeline.pendingTime_of_period {t t' rest : Timeline} {e : Entry} {due : UInt64}
    {event : Event} (other : Event) (next : t.pop? = some (e, rest)) (kind : e.event = event)
    (hne : event ≠ other) (scheduled : rest.schedule due event = .ok t') :
    t'.pendingTime (· = other) = t.pendingTime (· = other) := by
  rw [pendingTime_schedule_of_ne scheduled (decide_eq_false hne),
    pendingTime_pop_of_ne next (decide_eq_false (kind ▸ hne))]

namespace Machine

/-- Both processors are paced. -/
structure Paced (m : Machine) : Prop where
  main : m.main.Paced
  mcu : m.mcu.Paced

/-- A turn leaves the processors paced. -/
theorem Paced.effect {m m' : Machine} {turn : Turn} (h : m.Paced) (he : Effect m turn m') :
    m'.Paced := by
  cases he with
  | mcu step later => exact ⟨h.main, fun i hi => h.mcu i (step.script_eq ▸ hi)⟩
  | main step counted later times => exact ⟨fun i hi => h.main i (step.script_eq ▸ hi), h.mcu⟩
  | _ => exact ⟨h.main, h.mcu⟩

/-! ## What turns give out -/

/-- The times of the clocks that numbers are given out by: that of the next shift, that of the next
display tick, and that of the main unit. -/
def clockSum (m : Machine) : ℕ :=
  m.timeline.pendingTime (· = .barcodeShift) + m.timeline.pendingTime (· = .displayTick) +
    m.mainTime.toNat

/-- What a turn adds to a counter is paid for by a clock that goes on. -/
structure Paid (m m' : Machine) : Prop where
  /-- The numbers of events. -/
  numbers : m'.timeline.nextSeq.toNat + m.clockSum ≤ m.timeline.nextSeq.toNat + m'.clockSum
  /-- The numbers of stalls. -/
  generation : m'.board.stall.generation.toNat + m.mainTime.toNat ≤
    m.board.stall.generation.toNat + m'.mainTime.toNat
  /-- The cycles of the main unit. -/
  gated : m'.board.stall.gatedCycles.toNat + m.mainTime.toNat ≤
    m.board.stall.gatedCycles.toNat + m'.mainTime.toNat

/-- An event that puts nothing on the timeline gives out nothing. -/
theorem paid_of_pop {m m' : Machine} {e : Entry} {rest : Timeline}
    (next : m.timeline.pop? = some (e, rest)) (hshift : e.event ≠ .barcodeShift)
    (htick : e.event ≠ .displayTick) (timeline : m'.timeline = rest)
    (generation : m'.board.stall.generation = m.board.stall.generation)
    (gated : m'.board.stall.gatedCycles = m.board.stall.gatedCycles)
    (later : m.mainTime.toNat ≤ m'.mainTime.toNat) : Paid m m' := by
  have same := congrArg UInt64.toNat (Timeline.pop?_eq_some.1 next).2
  have shifts : rest.pendingTime (· = .barcodeShift) = m.timeline.pendingTime (· = .barcodeShift) :=
    Timeline.pendingTime_pop_of_ne next (decide_eq_false hshift)
  have ticks : rest.pendingTime (· = .displayTick) = m.timeline.pendingTime (· = .displayTick) :=
    Timeline.pendingTime_pop_of_ne next (decide_eq_false htick)
  refine ⟨?_, ?_, ?_⟩
  · unfold clockSum
    rw [timeline, shifts, ticks]
    omega
  · rw [generation]
    omega
  · rw [gated]
    omega

/-- A word that is timed takes one number at most. -/
theorem Times.nextSeq_le {m : Machine} {b : Board} {mainTime : UInt64} {timeline : Timeline}
    {timed : List UInt8} (h : m.Times b mainTime timeline timed) :
    timeline.nextSeq.toNat ≤ m.timeline.nextSeq.toNat + 1 := by
  unfold Times at h
  split at h
  · exact Nat.le_of_eq (Timeline.schedule_eq_ok.1 h.1).2
  · rw [h.1]
    exact Nat.le_succ _

/-- A word that is timed leaves the times of the periodic events as they are. -/
theorem Times.pendingTime_eq {m : Machine} {b : Board} {mainTime : UInt64} {timeline : Timeline}
    {timed : List UInt8} (h : m.Times b mainTime timeline timed) (event : Event)
    (hne : ∀ generation, .speechDone generation ≠ event) :
    timeline.pendingTime (· = event) = m.timeline.pendingTime (· = event) :=
  Timeline.pendingTime_congr (h.ofKind_eq fun generation => decide_eq_false (hne generation))

/-- A step of the main unit takes at least as many master cycles as cycles of its own. -/
theorem le_masterCycles (m : Machine) (cycles : UInt32) :
    cycles.toNat ≤ (masterCycles cycles m.config.mainDivider).toNat := by
  have hne : m.config.mainDivider ≠ 0 := (Config.valid_iff.1 m.valid).2.1
  rw [masterCycles_toNat]
  exact Nat.le_mul_of_pos_right _ (Nat.pos_of_ne_zero fun hzero => hne (UInt32.toNat_inj.1 hzero))

/-- What every turn adds to a counter is paid for. -/
theorem Effect.paid {m m' : Machine} {turn : Turn} (he : Effect m turn m') : Paid m m' := by
  obtain ⟨hshift, htick⟩ := m.periods_pos
  cases he with
  | shift next kind period scheduled =>
    have hnumbers := Timeline.numbers_of_period next kind hshift period scheduled
    have hticks := Timeline.pendingTime_of_period .displayTick next kind nofun scheduled
    refine ⟨?_, Nat.le_refl _, Nat.le_refl _⟩
    simp only [clockSum, hticks]
    omega
  | tick next kind counted period scheduled =>
    have hnumbers := Timeline.numbers_of_period next kind htick period scheduled
    have hshifts := Timeline.pendingTime_of_period .barcodeShift next kind nofun scheduled
    refine ⟨?_, Nat.le_refl _, Nat.le_refl _⟩
    simp only [clockSum, hshifts]
    omega
  | swipe next kind =>
    exact paid_of_pop next (kind ▸ nofun) (kind ▸ nofun) rfl rfl rfl (Nat.le_refl _)
  | key next kind =>
    exact paid_of_pop next (kind ▸ nofun) (kind ▸ nofun) rfl rfl rfl (Nat.le_refl _)
  | spurious next kind other =>
    exact paid_of_pop next (kind ▸ nofun) (kind ▸ nofun) rfl rfl rfl (Nat.le_refl _)
  | release next kind stalled counted =>
    refine paid_of_pop next (kind ▸ nofun) (kind ▸ nofun) rfl rfl rfl ?_
    rw [toNat_max]
    exact Nat.le_max_left _ _
  | @mcu mcu board cycles mcuTime step later =>
    have hstall : board.stall = m.board.stall := congrArg Board.Remote.stall step.remote_eq
    have same {f : StallControl → UInt64} : (f board.stall).toNat + m.mainTime.toNat ≤
        (f m.board.stall).toNat + m.mainTime.toNat := by
      rw [hstall]
    exact ⟨Nat.le_refl _, same, same⟩
  | @main main board cycles gatedCycles mainTime timeline timed step counted later times =>
    -- One cycle of a step pays for each number, and all of them for themselves.
    have hcycles := step.one_le_cycles
    have hmaster := m.le_masterCycles cycles
    have hnumber := times.nextSeq_le
    have hshifts := times.pendingTime_eq .barcodeShift nofun
    have hticks := times.pendingTime_eq .displayTick nofun
    obtain ⟨hgated, hgeneration⟩ := step.main_stall
    refine ⟨?_, ?_, ?_⟩
    · simp only [clockSum, hshifts, hticks]
      omega
    · show board.stall.generation.toNat + _ ≤ m.board.stall.generation.toNat + mainTime.toNat
      have hgeneration : board.stall.generation.toNat ≤ m.board.stall.generation.toNat + 1 :=
        hgeneration
      omega
    · show gatedCycles.toNat + _ ≤ m.board.stall.gatedCycles.toNat + mainTime.toNat
      have hgated : board.stall.gatedCycles = m.board.stall.gatedCycles := hgated
      rw [hgated] at counted
      split at counted
      · omega
      · omega

end Machine

end CardComputer
