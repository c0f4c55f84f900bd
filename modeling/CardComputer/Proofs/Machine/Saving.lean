import CardComputer.Proofs.Machine.History
import CardComputer.Proofs.Timeline.Kinds

/-!
# Saving and loading

What a machine has saved is read back, except for the next number of the timeline, which is worked
out anew (`Machine.readSnapshot_save`). Every machine with a history is regular
(`Machine.History.regular`): its board belongs to its configuration, its timeline is orderly, and
its scanner is not ahead of a whole swipe. So what it has saved can be loaded, by every machine of
its model with its decay window and by no other (`Machine.Regular.load_save`).
-/

namespace CardComputer.Machine

open Op

/-! ## Reading what was saved -/

/-- A part of a saved machine is read back. -/
theorem readPart_eq_ok {α : Type} [Json.Stored α] [Json.LawfulStored α] {key : String} {v : Json}
    {a : α} (h : v.get key = Json.encode a) : readPart key v = .ok a := by
  unfold readPart
  rw [h, Json.decode_encode]
  rfl

/-- A saved machine has the form of saved machines. -/
theorem checkSavedForm_save (m : Machine) : checkSavedForm m.save = .ok () := by
  have tag : hasSavedTag m.save = true := rfl
  have version : readPart "version" m.save = .ok savedVersion := readPart_eq_ok rfl
  unfold checkSavedForm
  rw [tag, version]
  rfl

/-- A board that can be decoded is read if it is that of the model and has the decay window. -/
theorem readBoard_of_io {c : Config} {v : Json} {board : Board} (io : readPart "io" v = .ok board) :
    readBoard c v =
      if board.model ≠ c.model then .error (.otherModel board.model c.model)
      else if board.display.window ≠ c.decayWindowTicks.toUInt64 then
        .error (.otherWindow board.display.window c.decayWindowTicks.toUInt64)
      else .ok board := by
  unfold readBoard
  rw [io]
  by_cases hm : board.model = c.model
  · by_cases hw : board.display.window = c.decayWindowTicks.toUInt64
    · simp [hm, hw, bind, Except.bind, pure, Except.pure]
    · simp [hm, hw, bind, Except.bind, throw, throwThe, MonadExceptOf.throw]
  · simp [hm, bind, Except.bind, throw, throwThe, MonadExceptOf.throw]

/-- The board of a saved machine is read by a machine of the same model with the same decay
window. -/
theorem readBoard_save (c : Config) (m : Machine) :
    readBoard c m.save =
      if m.board.model ≠ c.model then .error (.otherModel m.board.model c.model)
      else if m.board.display.window ≠ c.decayWindowTicks.toUInt64 then
        .error (.otherWindow m.board.display.window c.decayWindowTicks.toUInt64)
      else .ok m.board :=
  readBoard_of_io (readPart_eq_ok rfl)

/-- What a machine has saved is read by a machine of the same model with the same decay window, and
its timeline is numbered on. -/
theorem readSnapshot_save {c : Config} {m : Machine} {timeline : Timeline}
    (hm : m.board.model = c.model) (hw : m.board.display.window = c.decayWindowTicks.toUInt64)
    (ht : Timeline.ofEntries m.timeline.entries = .ok timeline) :
    (readSnapshot c m.save).run = .ok (.ok { m.snapshot with timeline }) := by
  have board : readBoard c m.save = .ok m.board := by
    rw [readBoard_save]
    simp [hm, hw]
  have entries : readPart "scheduler" m.save = .ok m.timeline.entries := readPart_eq_ok rfl
  have now : readPart "now" m.save = .ok m.now := readPart_eq_ok rfl
  have mainTime : readPart "main_time" m.save = .ok m.mainTime := readPart_eq_ok rfl
  have mcuTime : readPart "mcu_time" m.save = .ok m.mcuTime := readPart_eq_ok rfl
  unfold readSnapshot
  rw [checkSavedForm_save, board, entries, now, mainTime, mcuTime]
  show ExceptT.run ((liftM (Timeline.ofEntries m.timeline.entries) :
    ExceptT LoadError (Except Fault) Timeline) >>= fun timeline =>
      pure { m.snapshot with timeline }) = _
  rw [ht]
  rfl

/-- What a machine has saved is refused by a machine of another model or with another decay
window. -/
theorem readSnapshot_save_of_ne {c : Config} {m : Machine}
    (h : ¬(m.board.model = c.model ∧ m.board.display.window = c.decayWindowTicks.toUInt64)) :
    ∃ e, (readSnapshot c m.save).run = .ok (.error e) := by
  -- The board is the first part that does not fit.
  obtain ⟨e, board⟩ : ∃ e, readBoard c m.save = .error e := by
    rw [readBoard_save]
    by_cases hm : m.board.model = c.model
    · have hw := not_and.1 h hm
      exact ⟨_, by rw [if_neg (not_not_intro hm), if_pos hw]⟩
    · exact ⟨_, if_pos hm⟩
  refine ⟨e, ?_⟩
  unfold readSnapshot
  rw [checkSavedForm_save, board]
  rfl

/-! ## Regular machines -/

/-- What is true of a machine wherever its host has brought it. -/
structure Regular (m : Machine) : Prop where
  /-- The board is that of the model. -/
  model : m.board.model = m.config.model
  /-- The decay window is the one of the configuration. -/
  window : m.board.display.window = m.config.decayWindowTicks.toUInt64
  orderly : m.timeline.Orderly
  /-- No more half-bits are to come than a swipe has. -/
  scanner : m.board.scanner.remaining ≤ Swipe.halfBits.toUInt8

/-- The entries at power-on are the periodic events. -/
theorem mem_powerOnTimeline {c : Config} {e : Entry} : e ∈ (powerOnTimeline c).entries ↔
    e = ⟨c.displayTickCycles, 1, .displayTick⟩ ∨ e = ⟨c.barcodeShiftCycles, 0, .barcodeShift⟩ := by
  show e ∈ Timeline.insertEntry _ [_] ↔ _
  rw [Timeline.mem_insertEntry, List.mem_singleton]

/-- The timeline at power-on is orderly. -/
theorem orderly_powerOnTimeline (c : Config) : (powerOnTimeline c).Orderly := by
  refine ⟨?_, fun e he => ?_⟩
  · show (Timeline.insertEntry _ [_]).Pairwise _
    refine Timeline.strict_insertEntry (by simp) fun x hx hnot => ?_
    obtain rfl := List.mem_singleton.1 hx
    rw [← Bool.not_eq_true, Entry.before_iff] at hnot
    rw [Entry.before_iff]
    simp at hnot ⊢
    omega
  · show e.seq < 2
    rcases mem_powerOnTimeline.1 he with rfl | rfl
    · exact (by decide : (1 : UInt64) < 2)
    · exact (by decide : (0 : UInt64) < 2)

/-- A machine is regular at power-on. -/
theorem regular_build (config : Config) (valid : config.Valid) (main mcu : Processor)
    (timer : Option PlaybackTimer) : (build config valid main mcu timer).Regular where
  model := rfl
  window := by
    have hw := (Config.valid_iff.1 valid).2.2.2.1
    show (if config.decayWindowTicks.toUInt64 = 0 then 1 else _) = _
    -- A window of no ticks would become one of one tick, but no valid configuration has it.
    refine if_neg fun hzero => hw (UInt32.toNat_inj.1 ?_)
    rw [← UInt32.toNat_toUInt64, hzero]
    rfl
  orderly := orderly_powerOnTimeline config
  scanner := UInt8.le_iff_toNat_le.2 (Nat.zero_le _)

/-- A word that is timed leaves the timeline orderly. -/
theorem Times.orderly {m : Machine} {b : Board} {mainTime : UInt64} {timeline : Timeline}
    {timed : List UInt8} (h : m.Times b mainTime timeline timed) (hm : m.timeline.Orderly) :
    timeline.Orderly := by
  unfold Times at h
  split at h
  · exact hm.schedule h.1
  · rw [h.1]
    exact hm

/-- A word that is timed puts at most a completion on the timeline. -/
theorem Times.ofKind_eq {m : Machine} {b : Board} {mainTime : UInt64} {timeline : Timeline}
    {timed : List UInt8} {kind : Event → Bool} (h : m.Times b mainTime timeline timed)
    (hk : ∀ generation, kind (.speechDone generation) = false) :
    timeline.ofKind kind = m.timeline.ofKind kind := by
  unfold Times at h
  split at h
  · exact Timeline.ofKind_schedule_of_ne h.1 (hk _)
  · rw [h.1]

/-- A scanner is no further from the end of a swipe one half-bit later. -/
theorem remaining_tick_le {c : Scanner} {n : UInt8} (h : c.remaining ≤ n) :
    c.tick.remaining ≤ n := by
  unfold Scanner.tick
  split
  · exact h
  · rename_i hne
    -- The subtraction of bytes does not wrap around.
    have hpos : c.remaining.toNat ≠ 0 := fun h => hne (UInt8.toNat_inj.1 h)
    rw [UInt8.le_iff_toNat_le] at h ⊢
    have hsub : (c.remaining - 1).toNat = c.remaining.toNat - 1 :=
      UInt8.toNat_sub_of_le _ _ (UInt8.le_iff_toNat_le.2 (by simp; omega))
    simp only [hsub]
    omega

/-- A turn leaves a machine regular. -/
theorem Regular.effect {m m' : Machine} {turn : Turn} (h : m.Regular) (he : Effect m turn m') :
    m'.Regular := by
  cases he with
  | shift next kind period scheduled =>
    exact ⟨h.model, h.window, (h.orderly.pop next).schedule scheduled, remaining_tick_le h.scanner⟩
  | tick next kind counted period scheduled =>
    exact ⟨h.model, h.window, (h.orderly.pop next).schedule scheduled, h.scanner⟩
  | swipe next kind => exact ⟨h.model, h.window, h.orderly.pop next, UInt8.le_refl _⟩
  | key next kind => exact ⟨h.model, h.window, h.orderly.pop next, h.scanner⟩
  | release next kind stalled counted => exact ⟨h.model, h.window, h.orderly.pop next, h.scanner⟩
  | spurious next kind other => exact ⟨h.model, h.window, h.orderly.pop next, h.scanner⟩
  | mcu step later =>
    -- The coprocessor changes nothing of the board that is checked here.
    have hremote := step.remote_eq
    have hmodel := congrArg Board.Remote.model hremote
    have hwindow := congrArg Board.Remote.window hremote
    have hscanner := congrArg Board.Remote.scanner hremote
    refine ⟨hmodel.trans h.model, hwindow.trans h.window, h.orderly, ?_⟩
    exact UInt8.le_trans (UInt8.le_of_eq (congrArg Scanner.remaining hscanner)) h.scanner
  | main step counted later times =>
    obtain ⟨mailbox, stall, playback, rfl⟩ := step.main_frame
    exact ⟨h.model, h.window, times.orderly h.orderly, h.scanner⟩

/-- A step leaves a machine regular. -/
theorem Regular.step {m m' : Machine} (h : m.Regular) (hs : Step m m') : m'.Regular := by
  cases hs with
  | install timer => exact ⟨h.model, h.window, h.orderly, h.scanner⟩
  | button => exact ⟨h.model, h.window, h.orderly, h.scanner⟩
  | post posted scheduled => exact ⟨h.model, h.window, h.orderly.schedule scheduled, h.scanner⟩
  | turn ht effect => exact h.effect effect
  | arrive ht => exact ⟨h.model, h.window, h.orderly, h.scanner⟩

/-- A reset leaves a machine regular. -/
theorem Regular.reset {m : Machine} (h : m.Regular) : m.reset.Regular where
  model := h.model
  window := by
    have hbuild := (regular_build m.config m.valid m.main m.mcu m.timer).window
    show (if m.board.display.window = 0 then 1 else m.board.display.window) = _
    rw [h.window]
    exact hbuild
  orderly := orderly_powerOnTimeline m.config
  scanner := UInt8.le_iff_toNat_le.2 (Nat.zero_le _)

/-- Whether a machine can load what another one has saved: they have the same model and the same
decay window. -/
def CanLoad (m saved : Machine) : Prop :=
  saved.config.model = m.config.model ∧ saved.config.decayWindowTicks = m.config.decayWindowTicks

/-- What a regular machine has saved is loaded as the same snapshot, but for the next number of the
timeline. -/
theorem Regular.load_save {saved : Machine} (h : saved.Regular) :
    ∃ timeline : Timeline, timeline.entries = saved.timeline.entries ∧
      timeline.nextSeq ≤ saved.timeline.nextSeq ∧ timeline.Orderly ∧
      ∀ m log, m.CanLoad saved → load saved.save ⟨m, log⟩ =
        .ok (.ok ()) ⟨restore { saved.snapshot with timeline } m, log⟩ := by
  obtain ⟨timeline, hread, hentries, hseq, horderly⟩ := h.orderly.ofEntries
  refine ⟨timeline, hentries, hseq, horderly, fun m log hload => ?_⟩
  have hwindow := h.window.trans (congrArg UInt32.toUInt64 hload.2)
  have hsnapshot := readSnapshot_save (h.model.trans hload.1) hwindow hread
  refine (bind_of_ok (device_eq_ok.2 ⟨rfl, rfl⟩)).trans ?_
  exact (bind_of_ok (check_eq_ok.2 ⟨hsnapshot, rfl⟩)).trans rfl

/-- What a regular machine has saved is refused by every other machine, which stays as it is. -/
theorem Regular.load_save_of_not {m saved : Machine} (h : saved.Regular)
    (hload : ¬m.CanLoad saved) (log : Log) :
    ∃ e, load saved.save ⟨m, log⟩ = .ok (.error e) ⟨m, log⟩ := by
  have hne : ¬(saved.board.model = m.config.model ∧
      saved.board.display.window = m.config.decayWindowTicks.toUInt64) := by
    rw [h.model, h.window]
    rintro ⟨hmodel, hwindow⟩
    refine hload ⟨hmodel, UInt32.toNat_inj.1 ?_⟩
    rw [← UInt32.toNat_toUInt64, hwindow, UInt32.toNat_toUInt64]
  obtain ⟨e, he⟩ := readSnapshot_save_of_ne hne
  refine ⟨e, (bind_of_ok (device_eq_ok.2 ⟨rfl, rfl⟩)).trans ?_⟩
  exact (bind_of_ok (check_eq_ok.2 ⟨he, rfl⟩)).trans rfl

/-- A machine that has loaded what a regular one has saved can do so, and has its snapshot, but for
the next number of the timeline. -/
theorem Regular.of_load {m m' saved : Machine} {log log' : Log} (h : saved.Regular)
    (hl : load saved.save ⟨m, log⟩ = .ok (.ok ()) ⟨m', log'⟩) :
    m.CanLoad saved ∧ ∃ timeline : Timeline, timeline.entries = saved.timeline.entries ∧
      timeline.nextSeq ≤ saved.timeline.nextSeq ∧ timeline.Orderly ∧
      m' = restore { saved.snapshot with timeline } m := by
  by_cases hload : m.CanLoad saved
  · obtain ⟨timeline, hentries, hseq, horderly, hok⟩ := h.load_save
    rw [hok m log hload] at hl
    cases hl
    exact ⟨hload, timeline, hentries, hseq, horderly, rfl⟩
  · obtain ⟨e, he⟩ := h.load_save_of_not hload log
    rw [he] at hl
    cases hl

/-- Loading what a regular machine has saved takes over its pending events. -/
theorem Regular.entries_of_load {m m' saved : Machine} {log log' : Log} (h : saved.Regular)
    (hl : load saved.save ⟨m, log⟩ = .ok (.ok ()) ⟨m', log'⟩) :
    m'.timeline.entries = saved.timeline.entries := by
  obtain ⟨-, timeline, hentries, -, -, rfl⟩ := h.of_load hl
  exact hentries

/-- Loading what a regular machine has saved takes over its board. -/
theorem Regular.board_of_load {m m' saved : Machine} {log log' : Log} (h : saved.Regular)
    (hl : load saved.save ⟨m, log⟩ = .ok (.ok ()) ⟨m', log'⟩) : m'.board = saved.board := by
  obtain ⟨-, timeline, -, -, -, rfl⟩ := h.of_load hl
  rfl

/-- What is read of what a regular machine has saved has an orderly timeline. -/
theorem Regular.orderly_of_read {saved : Machine} {c : Config} {snapshot : Snapshot}
    (h : saved.Regular) (hread : (readSnapshot c saved.save).run = .ok (.ok snapshot)) :
    snapshot.timeline.Orderly := by
  by_cases hc : saved.board.model = c.model ∧
      saved.board.display.window = c.decayWindowTicks.toUInt64
  · obtain ⟨timeline, hentries, -, -, horderly⟩ := h.orderly.ofEntries
    rw [readSnapshot_save hc.1 hc.2 hentries] at hread
    cases hread
    exact horderly
  · obtain ⟨e, he⟩ := readSnapshot_save_of_ne hc
    rw [he] at hread
    cases hread

/-- A successful call leaves a machine regular, if what it loads was saved by a regular one. -/
theorem Regular.perform {c : Call} {s s' : Observed Machine} {a : Answer} (h : s.device.Regular)
    (origin : ∀ saved, c = .load saved → saved.Regular) (hc : c.perform s = .ok a s') :
    s'.device.Regular := by
  refine invariant_perform (P := Regular) (fun _ _ hm => hm.step) (fun _ hm => hm.reset)
    (fun saved snapshot hload hread => ?_) h hc
  have loaded : load saved.save s =
      .ok (.ok ()) { s with device := restore snapshot s.device } :=
    (bind_of_ok (device_eq_ok.2 ⟨rfl, rfl⟩)).trans (bind_of_ok (check_eq_ok.2 ⟨hread, rfl⟩))
  have hsaved := origin saved hload
  obtain ⟨hcan, timeline, -, -, horderly, hrestore⟩ := hsaved.of_load loaded
  rw [hrestore]
  have hwindow := congrArg UInt32.toUInt64 hcan.2
  exact ⟨hsaved.model.trans hcan.1, hsaved.window.trans hwindow, horderly, hsaved.scanner⟩

/-- Every machine with a history is regular. -/
theorem History.regular {past : List Machine} {m : Machine} (h : History past m) : m.Regular := by
  induction h with
  | build config valid main mcu timer => exact regular_build config valid main mcu timer
  | move before hmove ih => exact ih.step hmove.step
  | reset before ih => exact ih.reset
  | load before origin hload ih ih' =>
    obtain ⟨hcan, timeline, hentries, hseq, horderly, rfl⟩ := ih'.of_load hload
    have hwindow := congrArg UInt32.toUInt64 hcan.2
    exact ⟨ih'.model.trans hcan.1, ih'.window.trans hwindow, horderly, ih'.scanner⟩

end CardComputer.Machine
