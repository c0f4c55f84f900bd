import CardComputer.Machine.Saved
import CardComputer.Proofs.Machine.Run

/-!
# Histories

A host operates a machine through calls (`Machine.Call`). What happens to the machine then is broken
up into moves: a request, a turn, or the arrival at the end of a run. `Machine.History` tells a
machine together with the states it has gone through since it was switched on; a machine that loads
a saved one takes over the history of that one. Every successful call continues a history
(`Machine.History.perform`), so that what all moves keep holds of every machine that a host can
reach, also in the middle of a run.
-/

namespace CardComputer.Machine

open Op

/-! ## Calls -/

/-- What a host can ask of a machine while no time passes. -/
inductive Request where
  | install (timer : PlaybackTimer)
  | swipe (code : CardCode)
  | setKey (key : Key) (pressed : Bool)
  /-- Reports that the current word was spoken. -/
  | speechDone
  | pressReset

/-- Fulfils a request. -/
def Request.perform : Request → Op Machine Unit
  | install timer => Op.update (Machine.install timer)
  | swipe code => Machine.swipe code
  | setKey key pressed => Machine.setKey key pressed
  | speechDone => Machine.speechDone
  | pressReset => Machine.pressReset

/-- What a host can do with a machine. -/
inductive Call where
  | request (r : Request)
  /-- Switches the machine off and on again. -/
  | reset
  | runUntil (target : UInt64)
  | stepFrame
  | load (saved : Machine)

/-- What a call answers. -/
inductive Answer where
  | done
  /-- What the display shows after a frame. -/
  | frame (frame : Frame)
  /-- Whether a saved machine was loaded. -/
  | loaded (result : Except LoadError Unit)

/-- Carries out a call. -/
def Call.perform : Call → Op Machine Answer
  | request r => do
    r.perform
    return .done
  | reset => do
    Op.update Machine.reset
    return .done
  | runUntil target => do
    Machine.runUntil target
    return .done
  | stepFrame => return .frame (← Machine.stepFrame)
  | load saved => return .loaded (← Machine.load saved.save)

/-- Carries out calls one after the other. -/
def performAll : List Call → Op Machine (List Answer)
  | [] => return []
  | c :: calls => do
    let answer ← c.perform
    let answers ← performAll calls
    return answer :: answers

/-! ## Moves -/

/-- One thing that happens to a machine that is switched on. -/
inductive Move (m m' : Machine) : Prop
  | request {r : Request} {log log' : Log} (h : r.perform ⟨m, log⟩ = .ok () ⟨m', log'⟩)
  /-- A turn is taken in a run. -/
  | turn {target : UInt64} {turn : Turn} {log log' : Log} (ht : m.turn? target = some turn)
    (h : take turn ⟨m, log⟩ = .ok () ⟨m', log'⟩)
  /-- A run has no more turns, and the machine arrives. -/
  | arrive {target : UInt64} (ht : m.turn? target = none) (h : arrive target m = m')

/-- A machine with the states it has gone through since it was switched on, the latest first. -/
inductive History : List Machine → Machine → Prop
  /-- Every machine at power-on. -/
  | build (config : Config) (valid : config.Valid) (main mcu : Processor)
    (timer : Option PlaybackTimer) : History [] (build config valid main mcu timer)
  /-- A move leaves a state behind. -/
  | move {past : List Machine} {m m' : Machine} (before : History past m) (h : Move m m') :
    History (m :: past) m'
  /-- A reset is a new beginning. -/
  | reset {past : List Machine} {m : Machine} (before : History past m) : History [] m.reset
  /-- Loading takes over the history of the machine that was saved. -/
  | load {past past' : List Machine} {m m' saved : Machine} {log log' : Log}
    (before : History past m) (origin : History past' saved)
    (h : load saved.save ⟨m, log⟩ = .ok (.ok ()) ⟨m', log'⟩) : History past' m'

/-- The events that a host can put on the timeline of a machine. -/
def Posts (m : Machine) : Event → Prop
  | .cardSwipe _ | .keyChange _ _ => True
  | .speechDone generation => generation = m.board.stall.generation
  | .barcodeShift | .displayTick => False

/-- What a move does to a machine. -/
inductive Step (m : Machine) : Machine → Prop
  | install (timer : PlaybackTimer) : Step m (m.install timer)
  | button : Step m { m with
      main := m.main.reset, mcu := m.mcu.reset, board := { m.board with mailbox := .empty } }
  /-- An event is put on the timeline, at the present. -/
  | post {event : Event} {timeline : Timeline} (posted : m.Posts event)
    (scheduled : m.timeline.schedule m.now event = .ok timeline) : Step m { m with timeline }
  | turn {target : UInt64} {turn : Turn} {m' : Machine} (ht : m.turn? target = some turn)
    (effect : Effect m turn m') : Step m m'
  /-- The machine arrives at a time with which it has caught up. -/
  | arrive {target : UInt64} (ht : m.turn? target = none) : Step m (arrive target m)

/-- The event that a request puts on the timeline. -/
def Request.event? (m : Machine) : Request → Option Event
  | swipe code => some (.cardSwipe code)
  | setKey key pressed => some (.keyChange key pressed)
  | speechDone => some (.speechDone m.board.stall.generation)
  | install _ | pressReset => none

/-- What a request does to a machine. -/
inductive Fulfilled (m : Machine) : Request → Machine → Prop
  | install (timer : PlaybackTimer) : Fulfilled m (.install timer) (m.install timer)
  | pressReset : Fulfilled m .pressReset { m with
      main := m.main.reset, mcu := m.mcu.reset, board := { m.board with mailbox := .empty } }
  /-- An event is put on the timeline, at the present. -/
  | posted {r : Request} {event : Event} {timeline : Timeline} (posts : r.event? m = some event)
    (scheduled : m.timeline.schedule m.now event = .ok timeline) : Fulfilled m r { m with timeline }

/-- A request leaves the clock and the step of the coprocessor alone. -/
theorem Fulfilled.now_eq {m m' : Machine} {r : Request} (h : Fulfilled m r m') :
    m'.now = m.now ∧ m'.mcuTime = m.mcuTime ∧ m'.config = m.config := by
  cases h <;> exact ⟨rfl, rfl, rfl⟩

/-- A request leaves the main unit's time and the stall control alone. -/
theorem Fulfilled.main_eq {m m' : Machine} {r : Request} (h : Fulfilled m r m') :
    m'.mainTime = m.mainTime ∧ m'.board.stall = m.board.stall := by
  cases h <;> exact ⟨rfl, rfl⟩

/-- A request is fulfilled. -/
theorem fulfilled_of_perform {r : Request} {s s' : Observed Machine} (h : r.perform s = .ok () s') :
    Fulfilled s.device r s'.device := by
  have posted {event : Event} (posts : r.event? s.device = some event)
      (h : schedule s.device.now event s = .ok () s') : Fulfilled s.device r s'.device := by
    obtain ⟨timeline, scheduled, hs⟩ := schedule_eq_ok h
    rw [hs]
    exact .posted posts scheduled
  cases r with
  | install timer =>
    obtain rfl := update_eq_ok.1 h
    exact .install timer
  | swipe code =>
    obtain ⟨m, t, ht, h⟩ := bind_eq_ok.1 h
    obtain ⟨rfl, rfl⟩ := device_eq_ok.1 ht
    exact posted rfl h
  | setKey key pressed =>
    obtain ⟨m, t, ht, h⟩ := bind_eq_ok.1 h
    obtain ⟨rfl, rfl⟩ := device_eq_ok.1 ht
    exact posted rfl h
  | speechDone =>
    obtain ⟨m, t, ht, h⟩ := bind_eq_ok.1 h
    obtain ⟨rfl, rfl⟩ := device_eq_ok.1 ht
    exact posted rfl h
  | pressReset =>
    obtain ⟨_, t, ht, h⟩ := bind_eq_ok.1 h
    have hlog := device_of_say ht
    obtain rfl := update_eq_ok.1 h
    simp only [hlog]
    exact .pressReset

/-- A request has its effect. -/
theorem step_of_request {r : Request} {s s' : Observed Machine} (h : r.perform s = .ok () s') :
    Step s.device s'.device := by
  have fulfilled := fulfilled_of_perform h
  generalize s'.device = m' at fulfilled ⊢
  cases fulfilled with
  | install timer => exact .install timer
  | pressReset => exact .button
  | posted posts scheduled =>
    refine .post ?_ scheduled
    -- A completion has the number of the current stall, whether it is open or not.
    cases r with
    | swipe code =>
      cases posts
      trivial
    | setKey key pressed =>
      cases posts
      trivial
    | speechDone =>
      cases posts
      rfl
    | install timer => cases posts
    | pressReset => cases posts

/-- A move is one of the steps. -/
theorem Move.step {m m' : Machine} (h : Move m m') : Step m m' := by
  cases h with
  | request h => exact step_of_request h
  | @turn target turn log log' ht h => exact .turn ht (effect_of_take (s := ⟨m, log⟩) ht h)
  | arrive ht h =>
    subst h
    exact .arrive ht

/-! ## Every call continues a history -/

/-- A run of turns continues a history. -/
theorem History.turns {target : UInt64} {past : List Machine} {s s' : Observed Machine}
    (before : History past s.device) (h : turns target s = .ok () s') :
    ∃ past', History past' s'.device ∧ s'.device.turn? target = none := by
  -- Every turn adds to the history, so the induction is for all of them.
  induction s using turns_induct target generalizing past with
  | stop s ht =>
    rw [turns_of_none ht] at h
    cases h
    exact ⟨past, before, ht⟩
  | go s turn ht ih =>
    rw [turns_of_some ht] at h
    obtain ⟨_, t, hstep, h⟩ := bind_eq_ok.1 h
    exact ih t hstep (before.move (.turn ht hstep)) h

/-- A run continues a history. -/
theorem History.runUntil {target : UInt64} {past : List Machine} {s s' : Observed Machine}
    (before : History past s.device) (h : runUntil target s = .ok () s') :
    ∃ past', History past' s'.device := by
  obtain ⟨t, ht, rfl⟩ := runUntil_eq_ok.1 h
  obtain ⟨past', hpast, hnone⟩ := before.turns ht
  exact ⟨t.device :: past', hpast.move (.arrive hnone rfl)⟩

/-- A frame is a run for a sixtieth of a second, and shows what the display shows at its end. -/
theorem runUntil_of_stepFrame {s s' : Observed Machine} {frame : Frame}
    (h : stepFrame s = .ok frame s') :
    ∃ target : UInt64, target.toNat = s.device.now.toNat + s.device.config.frameCycles.toNat ∧
      Machine.runUntil target s = .ok () s' ∧ frame = s'.device.frame := by
  obtain ⟨m, t, ht, h⟩ := bind_eq_ok.1 h
  obtain ⟨_, u, hu, h⟩ := bind_eq_ok.1 h
  obtain ⟨n, v, hv, h⟩ := bind_eq_ok.1 h
  obtain ⟨rfl, rfl⟩ := device_eq_ok.1 ht
  obtain ⟨rfl, rfl⟩ := device_eq_ok.1 hv
  obtain ⟨rfl, rfl⟩ := pure_eq_ok.1 h
  obtain ⟨_, w, hw, hu⟩ := bind_eq_ok.1 hu
  obtain ⟨target, x, hx, hu⟩ := bind_eq_ok.1 hu
  obtain ⟨rfl, rfl⟩ := device_eq_ok.1 hw
  obtain ⟨hadd, rfl⟩ := check_eq_ok.1 hx
  exact ⟨target, checkedAdd_eq_ok_iff.1 hadd, hu, rfl⟩

/-- Loading replaces what is saved, or nothing. -/
theorem load_eq_ok {v : Json} {s s' : Observed Machine} {result : Except LoadError Unit}
    (h : load v s = .ok result s') :
    (∃ snapshot, (readSnapshot s.device.config v).run = .ok (.ok snapshot) ∧ result = .ok () ∧
      s' = { s with device := restore snapshot s.device }) ∨
    (∃ e, (readSnapshot s.device.config v).run = .ok (.error e) ∧ result = .error e ∧ s' = s) := by
  obtain ⟨m, t, ht, h⟩ := bind_eq_ok.1 h
  obtain ⟨rfl, rfl⟩ := device_eq_ok.1 ht
  obtain ⟨read, u, hu, h⟩ := bind_eq_ok.1 h
  obtain ⟨hread, rfl⟩ := check_eq_ok.1 hu
  cases read with
  | error e =>
    obtain ⟨rfl, rfl⟩ := pure_eq_ok.1 h
    exact Or.inr ⟨e, hread, rfl, rfl⟩
  | ok snapshot =>
    obtain ⟨_, v, hv, h⟩ := bind_eq_ok.1 h
    obtain rfl := update_eq_ok.1 hv
    obtain ⟨rfl, rfl⟩ := pure_eq_ok.1 h
    exact Or.inl ⟨snapshot, hread, rfl, rfl⟩

/-- What every step and every reset keeps, and what a machine has after loading, is kept by every
successful call. -/
theorem invariant_perform {P : Machine → Prop} (step : ∀ m m', P m → Step m m' → P m')
    (reset : ∀ m, P m → P m.reset) {c : Call} {s s' : Observed Machine} {a : Answer}
    (load : ∀ saved snapshot, c = .load saved →
      (readSnapshot s.device.config saved.save).run = .ok (.ok snapshot) →
      P (restore snapshot s.device))
    (hs : P s.device) (h : c.perform s = .ok a s') : P s'.device := by
  have run {target : UInt64} {t : Observed Machine} (h : Machine.runUntil target s = .ok () t) :
      P t.device := by
    obtain ⟨u, hu, rfl⟩ := runUntil_eq_ok.1 h
    obtain ⟨hlast, hnone⟩ :=
      turns_invariant (fun m _ m' hm ht he => step m m' hm (.turn ht he)) hs hu
    exact step _ _ hlast (.arrive hnone)
  cases c with
  | request r =>
    obtain ⟨_, t, ht, h⟩ := bind_eq_ok.1 h
    obtain ⟨-, rfl⟩ := pure_eq_ok.1 h
    exact step _ _ hs (step_of_request ht)
  | reset =>
    obtain ⟨_, t, ht, h⟩ := bind_eq_ok.1 h
    obtain ⟨-, rfl⟩ := pure_eq_ok.1 h
    obtain rfl := update_eq_ok.1 ht
    exact reset _ hs
  | runUntil target =>
    obtain ⟨_, t, ht, h⟩ := bind_eq_ok.1 h
    obtain ⟨-, rfl⟩ := pure_eq_ok.1 h
    exact run ht
  | stepFrame =>
    obtain ⟨frame, t, ht, h⟩ := bind_eq_ok.1 h
    obtain ⟨-, rfl⟩ := pure_eq_ok.1 h
    obtain ⟨target, -, hrun, -⟩ := runUntil_of_stepFrame ht
    exact run hrun
  | load saved =>
    obtain ⟨result, t, ht, h⟩ := bind_eq_ok.1 h
    obtain ⟨-, rfl⟩ := pure_eq_ok.1 h
    rcases load_eq_ok ht with ⟨snapshot, hread, -, rfl⟩ | ⟨e, -, -, rfl⟩
    · exact load saved snapshot rfl hread
    · exact hs

/-- A successful call continues a history, if what it loads was saved by a machine with one. -/
theorem History.perform {c : Call} {past : List Machine} {s s' : Observed Machine} {a : Answer}
    (before : History past s.device)
    (origin : ∀ saved, c = .load saved → ∃ past', History past' saved)
    (h : c.perform s = .ok a s') : ∃ past', History past' s'.device := by
  cases c with
  | request r =>
    obtain ⟨_, t, ht, h⟩ := bind_eq_ok.1 h
    obtain ⟨-, rfl⟩ := pure_eq_ok.1 h
    exact ⟨s.device :: past, before.move (.request ht)⟩
  | reset =>
    obtain ⟨_, t, ht, h⟩ := bind_eq_ok.1 h
    obtain ⟨-, rfl⟩ := pure_eq_ok.1 h
    obtain rfl := update_eq_ok.1 ht
    exact ⟨[], before.reset⟩
  | runUntil target =>
    obtain ⟨_, t, ht, h⟩ := bind_eq_ok.1 h
    obtain ⟨-, rfl⟩ := pure_eq_ok.1 h
    exact before.runUntil ht
  | stepFrame =>
    obtain ⟨frame, t, ht, h⟩ := bind_eq_ok.1 h
    obtain ⟨-, rfl⟩ := pure_eq_ok.1 h
    obtain ⟨target, -, hrun, -⟩ := runUntil_of_stepFrame ht
    exact before.runUntil hrun
  | load saved =>
    obtain ⟨result, t, ht, h⟩ := bind_eq_ok.1 h
    obtain ⟨-, rfl⟩ := pure_eq_ok.1 h
    obtain ⟨past', hsaved⟩ := origin saved rfl
    -- What is refused leaves the machine with its own history.
    rcases load_eq_ok ht with ⟨snapshot, hread, rfl, rfl⟩ | ⟨e, hread, rfl, rfl⟩
    · exact ⟨past', .load before hsaved ht⟩
    · exact ⟨past, before⟩

end CardComputer.Machine
