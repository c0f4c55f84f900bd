import CardComputer.Proofs.Machine.Chunking
import CardComputer.Proofs.Machine.Coprocessor
import CardComputer.Proofs.Machine.Onward
import CardComputer.Proofs.Machine.Pending
import Mathlib.Data.Nat.Count
import Mathlib.Order.Bounds.Defs

/-!
# Periodic events

The shifts of the card sensor and the ticks of the display happen at the multiples of their periods.
A clock of this kind has one entry on the timeline, for the first multiple that it has not come to
yet (`Timeline.Beats`). Every turn keeps this (`Machine.Ticking.effect`), so between two calls of a
host the entry is for the first multiple that is not before the present, and all multiples before it
were counted (`Machine.clocks_keep_time`).
-/

namespace CardComputer

open Op

namespace Timeline

/-- The one entry of a periodic event that has happened `n` times, the last time before a bound. -/
structure Beats (event : Event) (period n bound : Nat) (t : Timeline) : Prop where
  entry : ∃ e, t.ofKind (· = event) = [e] ∧ e.time.toNat = (n + 1) * period
  last : n = 0 ∨ n * period < bound

section Beats

variable {event : Event} {period n bound : Nat} {t t' rest : Timeline} {e : Entry}

theorem Beats.mono {bound' : Nat} (h : Beats event period n bound t) (hle : bound ≤ bound') :
    Beats event period n bound' t :=
  ⟨h.entry, h.last.imp_right fun hlt => Nat.lt_of_lt_of_le hlt hle⟩

theorem Beats.congr (h : Beats event period n bound t)
    (same : t'.ofKind (· = event) = t.ofKind (· = event)) : Beats event period n bound t' :=
  ⟨same ▸ h.entry, h.last⟩

theorem Beats.schedule_of_ne {time : UInt64} {other : Event} (h : Beats event period n bound t)
    (hs : t.schedule time other = .ok t') (hne : other ≠ event) :
    Beats event period n bound t' :=
  h.congr (ofKind_schedule_of_ne hs (decide_eq_false hne))

theorem Beats.pop_of_ne (h : Beats event period n bound t) (next : t.pop? = some (e, rest))
    (hne : e.event ≠ event) : Beats event period n bound rest :=
  h.congr (ofKind_pop_of_ne next (decide_eq_false hne))

theorem Beats.exists_entry (h : Beats event period n bound t) :
    ∃ e ∈ t.entries, e.event = event ∧ e.time.toNat = (n + 1) * period := by
  obtain ⟨e, he, htime⟩ := h.entry
  have hmem : e ∈ t.ofKind (· = event) := he ▸ List.mem_singleton_self e
  obtain ⟨hmem, hk⟩ := mem_ofKind.1 hmem
  exact ⟨e, hmem, of_decide_eq_true hk, htime⟩

theorem Beats.time_eq (h : Beats event period n bound t) (he : e ∈ t.entries)
    (kind : e.event = event) : e.time.toNat = (n + 1) * period := by
  obtain ⟨f, hf, htime⟩ := h.entry
  have hmem : e ∈ t.ofKind (· = event) := mem_ofKind.2 ⟨he, decide_eq_true kind⟩
  rw [hf, List.mem_singleton] at hmem
  exact hmem ▸ htime

/-- The event happens for the next time, and is scheduled one period later. -/
theorem Beats.beat {due : UInt64} (h : Beats event period n bound t)
    (next : t.pop? = some (e, rest)) (kind : e.event = event) (early : e.time.toNat < bound)
    (later : due.toNat = e.time.toNat + period) (scheduled : rest.schedule due event = .ok t') :
    Beats event period (n + 1) bound t' := by
  obtain ⟨e', he', htime⟩ := h.entry
  have hpop : t.ofKind (· = event) = e :: rest.ofKind (· = event) :=
    ofKind_pop next (decide_eq_true kind)
  -- The entry that is taken away is the only one.
  rw [he'] at hpop
  obtain ⟨rfl, hrest⟩ := List.cons.inj hpop
  refine ⟨⟨⟨due, rest.nextSeq, event⟩, ?_, ?_⟩, Or.inr (htime ▸ early)⟩
  · exact (ofKind_schedule scheduled (decide_eq_true rfl)).trans (congrArg _ hrest.symm)
  · rw [later, htime, Nat.add_mul (n + 1) 1 period, Nat.one_mul]

/-- The entry of an event that was scheduled for the end of its first period. -/
theorem beats_of_entry {period : UInt64} (he : t.ofKind (· = event) = [e])
    (htime : e.time = period) (bound : Nat) : Beats event period.toNat 0 bound t :=
  ⟨⟨e, he, by rw [htime, Nat.zero_add, Nat.one_mul]⟩, Or.inl rfl⟩

end Beats

end Timeline

namespace Machine

/-- Both periodic events have happened at the multiples of their periods before some time, and the
display has counted its ticks. -/
structure Ticking (bound : UInt64) (m : Machine) : Prop where
  shift : ∃ n, m.timeline.Beats .barcodeShift m.config.barcodeShiftCycles.toNat n bound.toNat
  tick : m.timeline.Beats .displayTick m.config.displayTickCycles.toNat m.board.display.now.toNat
    bound.toNat

/-- The periods are positive. -/
theorem periods_pos (m : Machine) :
    0 < m.config.barcodeShiftCycles.toNat ∧ 0 < m.config.displayTickCycles.toNat := by
  have hvalid := Config.valid_iff.1 m.valid
  have positive {period : UInt64} (hne : period ≠ 0) : 0 < period.toNat :=
    Nat.pos_of_ne_zero fun hzero => hne (UInt64.toNat_inj.1 hzero)
  exact ⟨positive hvalid.2.2.2.2.1, positive hvalid.2.2.2.2.2⟩

/-- The timeline at power-on, event by event. -/
theorem ofKind_powerOnTimeline (c : Config) :
    (powerOnTimeline c).ofKind (· = .barcodeShift) = [⟨c.barcodeShiftCycles, 0, .barcodeShift⟩] ∧
      (powerOnTimeline c).ofKind (· = .displayTick) = [⟨c.displayTickCycles, 1, .displayTick⟩] :=
  ⟨Timeline.filter_insertEntry_of_neg rfl _,
    Timeline.filter_insertEntry_of_pos rfl (List.pairwise_singleton _ _)⟩

/-- At power-on both events are to happen for the first time. -/
theorem ticking_powerOn {m : Machine} (timeline : m.timeline = powerOnTimeline m.config)
    (uncounted : m.board.display.now = 0) (bound : UInt64) : m.Ticking bound := by
  obtain ⟨hshift, htick⟩ := ofKind_powerOnTimeline m.config
  rw [← timeline] at hshift htick
  refine ⟨⟨0, Timeline.beats_of_entry hshift rfl _⟩, ?_⟩
  rw [uncounted]
  exact Timeline.beats_of_entry htick rfl _

/-- A turn before a time keeps the periodic events going. -/
theorem Ticking.effect {target : UInt64} {m m' : Machine} {turn : Turn} (h : m.Ticking target)
    (ht : m.turn? target = some turn) (he : Effect m turn m') : m'.Ticking target := by
  -- The turn is taken before the target.
  have early {e : Entry} {rest : Timeline} (hturn : turn = .event)
      (next : m.timeline.pop? = some (e, rest)) : e.time.toNat < target.toNat := by
    have hlt := (due_of_turn? ht).target
    rwa [hturn, turnTime_event next, UInt64.lt_iff_toNat_lt] at hlt
  -- An event of another kind leaves both entries where they are.
  have other {e : Entry} {rest : Timeline} (next : m.timeline.pop? = some (e, rest))
      (hshift : e.event ≠ .barcodeShift) (htick : e.event ≠ .displayTick) :
      (∃ n, rest.Beats .barcodeShift m.config.barcodeShiftCycles.toNat n target.toNat) ∧
        rest.Beats .displayTick m.config.displayTickCycles.toNat m.board.display.now.toNat
          target.toNat := by
    obtain ⟨n, hn⟩ := h.shift
    exact ⟨⟨n, hn.pop_of_ne next hshift⟩, h.tick.pop_of_ne next htick⟩
  cases he with
  | shift next kind period scheduled =>
    obtain ⟨n, hn⟩ := h.shift
    refine ⟨⟨n + 1, hn.beat next kind (early rfl next) period scheduled⟩, ?_⟩
    exact (h.tick.pop_of_ne next (kind ▸ nofun)).schedule_of_ne scheduled nofun
  | tick next kind counted period scheduled =>
    obtain ⟨n, hn⟩ := h.shift
    refine ⟨⟨n, (hn.pop_of_ne next (kind ▸ nofun)).schedule_of_ne scheduled nofun⟩, ?_⟩
    show Timeline.Beats _ _ _ _ _
    rw [counted]
    exact h.tick.beat next kind (early rfl next) period scheduled
  | swipe next kind =>
    obtain ⟨hshift, htick⟩ := other next (kind ▸ nofun) (kind ▸ nofun)
    exact ⟨hshift, htick⟩
  | key next kind =>
    obtain ⟨hshift, htick⟩ := other next (kind ▸ nofun) (kind ▸ nofun)
    exact ⟨hshift, htick⟩
  | release next kind stalled counted =>
    obtain ⟨hshift, htick⟩ := other next (kind ▸ nofun) (kind ▸ nofun)
    exact ⟨hshift, htick⟩
  | spurious next kind _ =>
    obtain ⟨hshift, htick⟩ := other next (kind ▸ nofun) (kind ▸ nofun)
    exact ⟨hshift, htick⟩
  | mcu step later =>
    refine ⟨h.shift, ?_⟩
    show Timeline.Beats _ _ _ _ _
    rw [step.display_now_eq]
    exact h.tick
  | main step counted later times =>
    obtain ⟨mailbox, stall, playback, rfl⟩ := step.main_frame
    obtain ⟨n, hn⟩ := h.shift
    exact ⟨⟨n, hn.congr (times.ofKind_eq fun _ => rfl)⟩,
      h.tick.congr (times.ofKind_eq fun _ => rfl)⟩

/-- A run that does not go back brings the periodic events up to its target. -/
theorem Ticking.runUntil {target : UInt64} {s s' : Observed Machine}
    (h : s.device.Ticking s.device.now) (forward : s.device.now ≤ target)
    (hs : runUntil target s = .ok () s') : s'.device.Ticking s'.device.now := by
  obtain ⟨t, ht, rfl⟩ := runUntil_eq_ok.1 hs
  have hle := UInt64.le_iff_toNat_le.1 forward
  obtain ⟨n, hn⟩ := h.shift
  have start : s.device.Ticking target := ⟨⟨n, hn.mono hle⟩, h.tick.mono hle⟩
  have stop := (turns_invariant (fun _ _ _ h ht he => Ticking.effect h ht he) start ht).1
  exact ⟨stop.shift, stop.tick⟩

/-- A request puts no periodic event on the timeline. -/
theorem Request.event?_ne {r : Request} {m : Machine} {event : Event}
    (h : r.event? m = some event) : event ≠ .barcodeShift ∧ event ≠ .displayTick := by
  cases r with
  | install timer => cases h
  | pressReset => cases h
  | _ =>
    cases h
    exact ⟨nofun, nofun⟩

theorem Ticking.fulfilled {bound : UInt64} {m m' : Machine} {r : Request} (h : m.Ticking bound)
    (hr : Fulfilled m r m') : m'.Ticking bound := by
  cases hr with
  | install timer => exact ⟨h.shift, h.tick⟩
  | pressReset => exact ⟨h.shift, h.tick⟩
  | posted posts scheduled =>
    obtain ⟨hshift, htick⟩ := Request.event?_ne posts
    obtain ⟨n, hn⟩ := h.shift
    exact ⟨⟨n, hn.schedule_of_ne scheduled hshift⟩, h.tick.schedule_of_ne scheduled htick⟩

/-- Loading takes over the periodic events of what a machine of the same configuration has saved. -/
theorem Ticking.of_load {bound : UInt64} {m m' saved : Machine} {log log' : Log}
    (h : saved.Ticking bound) (regular : saved.Regular) (config : saved.config = m.config)
    (hl : load saved.save ⟨m, log⟩ = .ok (.ok ()) ⟨m', log'⟩) : m'.Ticking bound := by
  obtain ⟨-, timeline, hentries, -, -, rfl⟩ := regular.of_load hl
  obtain ⟨n, hn⟩ := h.shift
  have htick := h.tick
  rw [config] at hn htick
  exact ⟨⟨n, hn.congr (Timeline.ofKind_congr hentries)⟩,
    htick.congr (Timeline.ofKind_congr hentries)⟩

/-- The periodic events of a machine that has gone onward have come to the present. -/
theorem Onward.ticking {swipes : List (CardCode × UInt64)} {m : Machine} (h : Onward swipes m) :
    m.Ticking m.now := by
  induction h with
  | build config valid main mcu timer => exact ticking_powerOn rfl rfl _
  | request before h ih =>
    have fulfilled := fulfilled_of_perform h
    rw [fulfilled.now_eq.1]
    exact ih.fulfilled fulfilled
  | runUntil before forward h ih => exact ih.runUntil forward h
  | stepFrame before h ih =>
    obtain ⟨target, forward, hrun⟩ := forward_of_stepFrame h
    exact ih.runUntil forward hrun
  | reset before ih => exact ticking_powerOn rfl rfl _
  | load before origin config h ih ih' =>
    obtain ⟨past, hpast⟩ := origin.history
    have loaded := ih'.of_load hpast.regular config h
    obtain ⟨-, timeline, -, -, -, rfl⟩ := hpast.regular.of_load h
    exact loaded

/-! ## Clocks -/

/-- How many multiples of a period there are up to a number. -/
theorem count_multiples (period n : ℕ) :
    Nat.count (fun t => 0 < t ∧ period ∣ t) (n + 1) = n / period := by
  induction n with
  | zero => simp [Nat.count_succ]
  | succ n ih =>
    rw [Nat.count_succ, ih, Nat.succ_div]
    simp

/-- An event that has happened `n` times before the present and is not late will happen at the first
multiple of its period that is not before the present. -/
theorem isLeast_of_beats {event : Event} {period n now : ℕ} {t : Timeline}
    (h : t.Beats event period n now) (hpos : 0 < period)
    (late : ∀ e ∈ t.entries, now ≤ e.time.toNat) :
    (∃ e, t.ofKind (· = event) = [e] ∧
      IsLeast {t : ℕ | 0 < t ∧ period ∣ t ∧ now ≤ t} e.time.toNat) ∧
    n = Nat.count (fun t => 0 < t ∧ period ∣ t) now := by
  obtain ⟨e, he, htime⟩ := h.entry
  have hmem : e ∈ t.ofKind (· = event) := he ▸ List.mem_singleton_self e
  have hle := late e (Timeline.mem_ofKind.1 hmem).1
  have hnext : 0 < (n + 1) * period := Nat.mul_pos n.succ_pos hpos
  refine ⟨⟨e, he, ⟨?_, ?_, hle⟩, ?_⟩, ?_⟩
  · rw [htime]
    exact hnext
  · rw [htime]
    exact Nat.dvd_mul_left period (n + 1)
  · rintro t ⟨ht, ⟨k, rfl⟩, hk⟩
    rw [htime, Nat.mul_comm]
    refine Nat.mul_le_mul_left period (Nat.lt_of_not_le fun hkn => ?_)
    -- A multiple that is no later than the last one is over.
    have hkle : period * k ≤ n * period := Nat.mul_comm n period ▸ Nat.mul_le_mul_left period hkn
    rcases h.last with rfl | hlt
    · omega
    · omega
  · cases now with
    | zero => exact h.last.resolve_right (Nat.not_lt_zero _)
    | succ now =>
      rw [count_multiples]
      refine (Nat.div_eq_of_lt_le ?_ ?_).symm
      · rcases h.last with rfl | hlt
        · omega
        · omega
      · omega

/-- Peripheral clocks never drift, stop or double. Of a machine that has gone onward the timeline
holds exactly one shift of the card sensor and one display tick, each for the least positive
multiple of its period that is not before the present, and the display has counted the positive
multiples of the period of its ticks before the present. -/
theorem clocks_keep_time {swipes : List (CardCode × UInt64)} {m : Machine} (h : Onward swipes m) :
    (∃ e, m.timeline.ofKind (· = .barcodeShift) = [e] ∧ IsLeast
      {t : ℕ | 0 < t ∧ m.config.barcodeShiftCycles.toNat ∣ t ∧ m.now.toNat ≤ t} e.time.toNat) ∧
    (∃ e, m.timeline.ofKind (· = .displayTick) = [e] ∧ IsLeast
      {t : ℕ | 0 < t ∧ m.config.displayTickCycles.toNat ∣ t ∧ m.now.toNat ≤ t} e.time.toNat) ∧
    m.board.display.now.toNat =
      Nat.count (fun t => 0 < t ∧ m.config.displayTickCycles.toNat ∣ t) m.now.toNat := by
  obtain ⟨past, hpast⟩ := h.history
  -- No pending event is late.
  have late : ∀ e ∈ m.timeline.entries, m.now.toNat ≤ e.time.toNat :=
    fun e he => UInt64.le_iff_toNat_le.1 (hpast.caughtUp.events e he)
  obtain ⟨n, hshift⟩ := h.ticking.shift
  obtain ⟨hnextShift, -⟩ := isLeast_of_beats hshift m.periods_pos.1 late
  obtain ⟨hnextTick, hcount⟩ := isLeast_of_beats h.ticking.tick m.periods_pos.2 late
  exact ⟨hnextShift, hnextTick, hcount⟩

/-- After a run of five cycles, with shifts every four cycles and ticks every three, the next shift
is that of the eighth cycle, and the display has counted one tick. -/
theorem reader_keeps_time : ∃ s, runUntil 5 ⟨reader, .fresh⟩ = .ok () s ∧ Onward [] s.device ∧
    s.device.board.display.now.toNat = 1 ∧
    ∃ e, s.device.timeline.ofKind (· = .barcodeShift) = [e] ∧ e.time.toNat = 8 := by
  have hsettled : ((after? 5 5 ⟨reader, .fresh⟩).any fun s => s.device.turn? 5 = none) = true := by
    decide +kernel
  obtain ⟨s, hs, hturn⟩ := (Option.any_eq_true _ _).1 hsettled
  have hrun := runUntil_eq_ok.2 ⟨s, turns_of_after? hs (of_decide_eq_true hturn), rfl⟩
  have honward : Onward [] (arrive 5 s.device) :=
    .runUntil (.build _ _ _ _ _) (UInt64.zero_le : reader.now ≤ 5) hrun
  obtain ⟨⟨e, he, hleast⟩, -, hcount⟩ := clocks_keep_time honward
  obtain ⟨hnow, hconfig⟩ := now_config_of_runUntil hrun
  rw [hnow, hconfig] at hleast hcount
  refine ⟨_, hrun, honward, ?_, e, he, ?_⟩
  · exact hcount.trans (by decide)
  · -- Eight is a multiple of four that is not before the present, and there is none before it.
    have hle : e.time.toNat ≤ 8 := hleast.2 ⟨by decide, by decide, by decide⟩
    obtain ⟨-, hdvd, hnow⟩ := hleast.1
    have hdvd : 4 ∣ e.time.toNat := hdvd
    have hnow : 5 ≤ e.time.toNat := hnow
    omega

end Machine

end CardComputer
