import CardComputer.Proofs.Machine.Loading
import CardComputer.Proofs.Machine.Timers

/-!
# Power-on

A machine that is switched off and on again forgets everything: whatever its host has done with it,
whatever it has loaded and whatever was done to its board, its board, its timeline and its clocks
are those of a machine that was just built (`Machine.reset_forgets`). What a reset reads of the past
is only the model and the decay window of the board, and these are always the ones of the
configuration (`Machine.Reached.fits`).

The processors stay as their own reset leaves them, and the timer of the machine stays with the
words it has timed; a machine that is built with such processors and with a timer that goes on from
there (`PlaybackTimer.resume`) does the same from then on, whatever its host does
(`Machine.Fits.retimed_successor`, `Machine.untimed_hostActions`).
-/

namespace CardComputer

/-- A board is reset to one at power-on with its model and its decay window. -/
theorem Board.reset_eq (b : Board) : b.reset = powerOn b.model b.display.window := rfl

/-- The timer that goes on where another one is after some words. -/
def PlaybackTimer.resume (timed : List UInt8) (timer : PlaybackTimer) : PlaybackTimer where
  duration later word := timer.duration (later ++ timed) word

namespace Machine

open Op

/-! ## What a host can bring about -/

/-- A board that belongs to the configuration of its machine. -/
structure Fits (m : Machine) : Prop where
  model : m.board.model = m.config.model
  /-- The decay window is the one of the configuration. -/
  window : m.board.display.window = m.config.decayWindowTicks.toUInt64

/-- A machine that a host has come by: after calls, with whatever values it has loaded, and with
whatever was done to its board in between, except that a board stays one of its model with its decay
window. -/
inductive Reached : Machine → Prop
  | build (config : Config) (valid : config.Valid) (main mcu : Processor)
    (timer : Option PlaybackTimer) : Reached (build config valid main mcu timer)
  /-- A call succeeds, or a value is loaded or refused. -/
  | action {a : HostAction} {s s' : Observed Machine} {answer : Answer} (before : Reached s.device)
    (h : a.perform s = .ok answer s') : Reached s'.device
  /-- The board is taken in hand. -/
  | board {m : Machine} {board : Board} (before : Reached m) (model : board.model = m.board.model)
    (window : board.display.window = m.board.display.window) : Reached { m with board }

/-- A turn changes neither the model of the board nor its decay window. -/
theorem Fits.effect {m m' : Machine} {turn : Turn} (h : m.Fits) (he : Effect m turn m') :
    m'.Fits := by
  cases he with
  | mcu step later =>
    have hremote := step.remote_eq
    exact ⟨(congrArg Board.Remote.model hremote).trans h.model,
      (congrArg Board.Remote.window hremote).trans h.window⟩
  | main step counted later times =>
    -- The main unit reaches the mailbox and the speech unit, not the display.
    obtain ⟨mailbox, stall, playback, rfl⟩ := step.main_frame
    exact ⟨h.model, h.window⟩
  | _ => exact ⟨h.model, h.window⟩

/-- Nor does a step. -/
theorem Fits.step {m m' : Machine} (h : m.Fits) (hs : Step m m') : m'.Fits := by
  cases hs with
  | turn ht effect => exact h.effect effect
  | _ => exact ⟨h.model, h.window⟩

/-- What a machine takes over fits it. -/
theorem fits_restore {m : Machine} {v : Json} {snapshot : Snapshot}
    (h : (readSnapshot m.config v).run = .ok (.ok snapshot)) : (restore snapshot m).Fits := by
  obtain ⟨entries, presents, -⟩ := (readSnapshot_eq_ok_iff.1 h).parts
  exact ⟨presents.model, presents.window⟩

/-- A board that fits is reset to that of a machine at power-on. -/
theorem Fits.reset_board {m : Machine} (h : m.Fits) :
    m.board.reset = .powerOn m.config.model m.config.decayWindowTicks.toUInt64 := by
  rw [Board.reset_eq, h.model, h.window]

/-- A machine at power-on fits its configuration. -/
theorem fits_build (config : Config) (valid : config.Valid) (main mcu : Processor)
    (timer : Option PlaybackTimer) : (build config valid main mcu timer).Fits := by
  have hregular := regular_build config valid main mcu timer
  exact ⟨hregular.model, hregular.window⟩

/-- A reset machine has the parts of one at power-on, with its processors and its timer. -/
theorem Fits.reset_eq {m : Machine} (h : m.Fits) : m.reset =
    { build m.config m.valid m.main.reset m.mcu.reset m.timer with timed := m.timed } := by
  unfold reset build
  rw [h.reset_board]

theorem Fits.reset {m : Machine} (h : m.Fits) : m.reset.Fits := by
  have hbuild := fits_build m.config m.valid m.main.reset m.mcu.reset m.timer
  rw [h.reset_eq]
  exact ⟨hbuild.model, hbuild.window⟩

/-- Every machine that a host has come by fits its configuration. -/
theorem Reached.fits {m : Machine} (h : Reached m) : m.Fits := by
  induction h with
  | build config valid main mcu timer => exact fits_build config valid main mcu timer
  | @action a s s' answer before h ih =>
    cases a with
    | call c =>
      exact invariant_perform (fun _ _ hm => hm.step) (fun _ hm => hm.reset)
        (fun _ _ _ hread => fits_restore hread) ih h
    | load v =>
      obtain ⟨result, t, hload, h⟩ := bind_eq_ok.1 h
      obtain ⟨-, rfl⟩ := pure_eq_ok.1 h
      rcases load_eq_ok hload with ⟨snapshot, hread, -, rfl⟩ | ⟨e, -, -, rfl⟩
      · exact fits_restore hread
      · exact ih
  | board before model window ih => exact ⟨model.trans ih.model, window.trans ih.window⟩

/-! ## Switched off and on again -/

/-- The machine that is built with the processors of another one after their own reset, and with a
timer that goes on where the timer of the other one is. -/
def successor (m : Machine) : Machine :=
  build m.config m.valid m.main.reset m.mcu.reset (m.timer.map (·.resume m.timed))

/-- The timer of the other machine goes on alike. -/
theorem timeAlike_successor (m : Machine) :
    TimeAlike m.successor.timer m.successor.timed m.timer m.timed := by
  show TimeAlike (m.timer.map _) [] m.timer m.timed
  cases m.timer with
  | none => exact .none
  | some timer =>
    refine .some fun later word => ?_
    rw [List.append_nil]
    rfl

/-- A reset machine is its successor with another timer. -/
theorem Fits.retimed_successor {m : Machine} (h : m.Fits) (log : Log) :
    Retimed ⟨m.successor, log⟩ ⟨m.reset, log⟩ := by
  refine ⟨m.timer, m.timed, ?_, timeAlike_successor m⟩
  rw [h.reset_eq]
  rfl

/-- A reset forgets everything. Whatever state a machine is in, of those that a host can come by, a
reset succeeds and leaves the saved parts of a machine at power-on, with no events but the first two
periodic ones, and the processors as their own reset leaves them. It is the machine that is built
with them and the same timer, which goes on from the words it has timed. So whatever a host does
then, it does the same as a machine that was just built and had no past at all: both give the same
answers, write the same messages and stay the same but for their timers, or have the same fault. -/
theorem reset_forgets {m : Machine} (h : Reached m) (log : Log) :
    Call.perform .reset ⟨m, log⟩ = .ok .done ⟨m.reset, log⟩ ∧
    (m.reset.snapshot = m.successor.snapshot ∧
      m.reset.main = m.main.reset ∧ m.reset.mcu = m.mcu.reset ∧
      ∀ e ∈ m.reset.timeline.entries, e ∈ firstEvents m.config) ∧
    m.reset =
      { build m.config m.valid m.main.reset m.mcu.reset m.timer with timed := m.timed } ∧
    ∀ (actions : List HostAction) (log' : Log), Agree Strict (· = ·) Retimed
      (hostActions actions ⟨m.successor, log'⟩) (hostActions actions ⟨m.reset, log'⟩) := by
  have fits := h.fits
  refine ⟨rfl, ⟨?_, rfl, rfl, fun e he => ?_⟩, fits.reset_eq, fun actions log' => ?_⟩
  · rw [fits.reset_eq]
    rfl
  · rcases mem_powerOnTimeline.1 he with rfl | rfl
    · exact List.mem_cons_of_mem _ List.mem_cons_self
    · exact List.mem_cons_self
  · exact untimed_hostActions actions _ _ (fits.retimed_successor log')

/-- A talker in the midst of a swipe, a pulse of the expander, a stall and a tone. -/
def bustling : Machine :=
  { talker with board := { talker.board with
      scanner := .loaded (.truncate 5)
      expander := talker.board.expander.fall talker.board.display
      stall := { talker.board.stall with state := .stalled, owner := some .speech, generation := 1 }
      speaker := true
      playback := some 7 } }

/-- Switched off and on again, it is like one that was just built, and does the same from then on,
also when it loads what it was before. -/
theorem bustling_forgets : Reached bustling ∧ bustling.reset.snapshot = talker.snapshot ∧
    Agree Strict (· = ·) Retimed
      (hostActions [.call .stepFrame, .call (.request .speechDone), .load bustling.save,
        .call .stepFrame] ⟨bustling.successor, .fresh⟩)
      (hostActions [.call .stepFrame, .call (.request .speechDone), .load bustling.save,
        .call .stepFrame] ⟨bustling.reset, .fresh⟩) := by
  have reached : Reached bustling := .board (.build _ talker.valid _ _ _) rfl rfl
  obtain ⟨-, ⟨snapshot, -⟩, -, agree⟩ := reset_forgets reached .fresh
  exact ⟨reached, snapshot, agree _ _⟩

end Machine

end CardComputer
