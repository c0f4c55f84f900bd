import CardComputer.Proofs.Machine.Stalls

/-!
# Journals

A journal tells what has happened to a machine since it was switched on: which turns were taken and
which requests were fulfilled (`Machine.Journal`). It does not tell how the turns were divided into
runs. Runs do not go back in time, and nothing is loaded; calls of this kind continue a journal, or
begin a new one if they reset the machine (`Machine.Journal.perform`,
`Machine.Journal.performAll`).

A turn stands in the journal with the machine before it, whose own journal is what was noted earlier
(`Machine.Journal.recorded`). So what holds of every machine with a journal holds at every turn.
-/

namespace CardComputer

/-- The cycles of the next step of a processor. -/
def Processor.nextCycles (p : Processor) : UInt32 :=
  match p.fetch.1 with
  | some i => max i.cycles 1
  | none => idleCycles

/-- The cycles of a step are decided when the instruction is fetched. -/
theorem Processor.Step.cycles_eq {bus : Bus Board} {p p' : Processor} {b b' : Board}
    {cycles : UInt32} (h : p.Step bus b p' b' cycles) : cycles = p.nextCycles := by
  unfold Processor.nextCycles
  cases h with
  | idle fetch => rw [fetch]
  | access fetch performed => rw [fetch]

namespace Machine

open Op

/-! ## Notes -/

/-- A turn that was taken. -/
structure Taken where
  /-- The machine before it. -/
  before : Machine
  turn : Turn
  /-- The machine after it. -/
  after : Machine

/-- When a turn was taken, as the clock showed. -/
def Taken.time (t : Taken) : UInt64 := t.after.now

/-- The cycles of a turn, if it was a step of a processor. -/
def Taken.cycles (t : Taken) : Nat :=
  match t.turn with
  | .event => 0
  | .mcu => t.before.mcu.nextCycles.toNat
  | .main => t.before.main.nextCycles.toNat

/-- Something that happened to a machine. -/
inductive Note where
  /-- A turn was taken. -/
  | turned (t : Taken)
  /-- A request was fulfilled. -/
  | asked (r : Request)

/-- The cycles of all steps of a processor. -/
def cyclesOf (turn : Turn) : List Note → Nat
  | [] => 0
  | .turned t :: notes => (if t.turn = turn then t.cycles else 0) + cyclesOf turn notes
  | .asked _ :: notes => cyclesOf turn notes

/-- A machine with its journal since it was switched on, the latest note first. A reset switches any
machine off and on again, wherever it has been. -/
inductive Journal : List Note → Machine → Prop
  | build (config : Config) (valid : config.Valid) (main mcu : Processor)
    (timer : Option PlaybackTimer) : Journal [] (build config valid main mcu timer)
  | reset (m : Machine) : Journal [] m.reset
  | request {notes : List Note} {m m' : Machine} {r : Request} {log log' : Log}
    (before : Journal notes m) (h : r.perform ⟨m, log⟩ = .ok () ⟨m', log'⟩) :
    Journal (.asked r :: notes) m'
  | turn {notes : List Note} {m m' : Machine} {target : UInt64} {turn : Turn} {log log' : Log}
    (before : Journal notes m) (ht : m.turn? target = some turn)
    (h : take turn ⟨m, log⟩ = .ok () ⟨m', log'⟩) : Journal (.turned ⟨m, turn, m'⟩ :: notes) m'
  /-- A run has no more turns before its target, which is not before the present. -/
  | arrive {notes : List Note} {m : Machine} {target : UInt64} (before : Journal notes m)
    (forward : m.now ≤ target) (ht : m.turn? target = none) : Journal notes (arrive target m)

/-! ## Calls -/

/-- A call that does not go back in time and does not load anything. -/
def Call.Forward (m : Machine) : Call → Prop
  | runUntil target => m.now ≤ target
  | load _ => False
  | _ => True

/-- No run is to a time before the present. -/
def AllForward : List Call → Observed Machine → Prop
  | [], _ => True
  | c :: calls, s => c.Forward s.device ∧ ∀ a t, c.perform s = .ok a t → AllForward calls t

/-- The notes that a call can add: a request is noted, and a run adds turns. -/
def Call.Adds (new : List Note) : Call → Prop
  | request r => new = [.asked r]
  | runUntil _ | stepFrame => ∃ taken : List Taken, new = taken.map .turned
  | reset | load _ => new = []

/-- The notes that stay after a call. A reset begins a new journal. -/
def Call.kept (notes : List Note) : Call → List Note
  | reset => []
  | request _ | runUntil _ | stepFrame | load _ => notes

/-- The notes after calls in a row, of which each adds some to those that stay. -/
inductive Continues : List Call → List Note → List Note → Prop
  | nil (notes : List Note) : Continues [] notes notes
  | cons {c : Call} {calls : List Call} {notes notes' new : List Note} (adds : c.Adds new)
    (rest : Continues calls (new ++ c.kept notes) notes') : Continues (c :: calls) notes notes'

/-- A run that does not go back in time continues a journal with the turns that it takes. -/
theorem Journal.turns {target : UInt64} {notes : List Note} {s s' : Observed Machine}
    (before : Journal notes s.device) (forward : s.device.now ≤ target)
    (h : turns target s = .ok () s') :
    ∃ taken : List Taken, Journal (taken.map .turned ++ notes) s'.device ∧
      s'.device.now ≤ target ∧ s'.device.turn? target = none := by
  -- Every turn adds a note, so the induction is for all journals.
  induction s using turns_induct target generalizing notes with
  | stop s ht =>
    rw [turns_of_none ht] at h
    cases h
    exact ⟨[], before, forward, ht⟩
  | go s turn ht ih =>
    rw [turns_of_some ht] at h
    obtain ⟨_, t, hstep, h⟩ := bind_eq_ok.1 h
    have hnow : t.device.now ≤ target := by
      rw [(effect_of_take ht hstep).timing.now]
      exact UInt64.le_of_lt (due_of_turn? ht).target
    obtain ⟨taken, journal, rest⟩ := ih t hstep (before.turn ht hstep) hnow h
    refine ⟨taken ++ [⟨s.device, turn, t.device⟩], ?_, rest⟩
    simpa using journal

theorem Journal.runUntil {target : UInt64} {notes : List Note} {s s' : Observed Machine}
    (before : Journal notes s.device) (forward : s.device.now ≤ target)
    (h : runUntil target s = .ok () s') :
    ∃ taken : List Taken, Journal (taken.map .turned ++ notes) s'.device := by
  obtain ⟨t, ht, rfl⟩ := runUntil_eq_ok.1 h
  obtain ⟨taken, journal, hnow, hnone⟩ := before.turns forward ht
  exact ⟨taken, journal.arrive hnow hnone⟩

/-- A successful call that does not go back in time continues a journal, or begins a new one if it
is a reset. -/
theorem Journal.perform {c : Call} {notes : List Note} {s s' : Observed Machine} {a : Answer}
    (before : Journal notes s.device) (forward : c.Forward s.device) (h : c.perform s = .ok a s') :
    ∃ new, c.Adds new ∧ Journal (new ++ c.kept notes) s'.device := by
  cases c with
  | request r =>
    obtain ⟨_, t, ht, h⟩ := bind_eq_ok.1 h
    obtain ⟨-, rfl⟩ := pure_eq_ok.1 h
    exact ⟨[.asked r], rfl, before.request ht⟩
  | reset =>
    obtain ⟨_, t, ht, h⟩ := bind_eq_ok.1 h
    obtain ⟨-, rfl⟩ := pure_eq_ok.1 h
    obtain rfl := update_eq_ok.1 ht
    exact ⟨[], rfl, .reset s.device⟩
  | runUntil target =>
    obtain ⟨_, t, ht, h⟩ := bind_eq_ok.1 h
    obtain ⟨-, rfl⟩ := pure_eq_ok.1 h
    obtain ⟨taken, journal⟩ := before.runUntil forward ht
    exact ⟨_, ⟨taken, rfl⟩, journal⟩
  | stepFrame =>
    obtain ⟨frame, t, ht, h⟩ := bind_eq_ok.1 h
    obtain ⟨-, rfl⟩ := pure_eq_ok.1 h
    obtain ⟨target, htarget, hrun, -⟩ := runUntil_of_stepFrame ht
    have hle : s.device.now ≤ target := by
      rw [UInt64.le_iff_toNat_le]
      omega
    obtain ⟨taken, journal⟩ := before.runUntil hle hrun
    exact ⟨_, ⟨taken, rfl⟩, journal⟩
  | load saved => exact forward.elim

/-- Calls in a row of which none goes back in time do so one after the other. -/
theorem Journal.performAll {calls : List Call} {notes : List Note} {s s' : Observed Machine}
    {answers : List Answer} (before : Journal notes s.device) (forward : AllForward calls s)
    (h : performAll calls s = .ok answers s') :
    ∃ notes', Continues calls notes notes' ∧ Journal notes' s'.device := by
  induction calls generalizing s notes answers with
  | nil =>
    obtain ⟨-, rfl⟩ := pure_eq_ok.1 h
    exact ⟨notes, .nil notes, before⟩
  | cons c calls ih =>
    obtain ⟨a, t, ht, h⟩ := bind_eq_ok.1 h
    obtain ⟨answers', u, hu, h⟩ := bind_eq_ok.1 h
    obtain ⟨-, rfl⟩ := pure_eq_ok.1 h
    obtain ⟨new, adds, journal⟩ := before.perform forward.1 ht
    obtain ⟨notes', rest, journal'⟩ := ih journal (forward.2 a t ht) hu
    exact ⟨notes', .cons adds rest, journal'⟩

/-! ## What a journal tells -/

/-- A turn as it stands in a journal, with what was noted earlier. -/
structure Recorded (earlier : List Note) (t : Taken) : Prop where
  journal : Journal earlier t.before
  /-- Somebody had the turn before some time. -/
  due : ∃ target, t.before.turn? target = some t.turn
  effect : Effect t.before t.turn t.after

/-- Every turn in a journal was taken by a machine with the journal before it. -/
theorem Journal.recorded {later earlier : List Note} {t : Taken} {m : Machine}
    (h : Journal (later ++ .turned t :: earlier) m) : Recorded earlier t := by
  generalize hnotes : later ++ .turned t :: earlier = notes at h
  -- The turn is the latest note, or it stands in the journal that the latest note continues.
  induction h generalizing later with
  | build | reset => simp at hnotes
  | request before h ih =>
    cases later with
    | nil => cases hnotes
    | cons note later => exact ih (List.cons.inj hnotes).2
  | @turn notes m m' target turn log log' before ht h ih =>
    cases later with
    | nil =>
      obtain ⟨ht', rfl⟩ := List.cons.inj hnotes
      cases ht'
      exact ⟨before, ⟨target, ht⟩, effect_of_take (s := ⟨m, log⟩) ht h⟩
    | cons note later => exact ih (List.cons.inj hnotes).2
  | arrive before forward ht ih => exact ih hnotes

/-- What is so of every machine that was just switched on and is kept by every step, is so of every
machine with a journal. -/
theorem Journal.invariant {P : Machine → Prop} {notes : List Note} {m : Machine}
    (h : Journal notes m)
    (start : ∀ config valid main mcu timer, P (Machine.build config valid main mcu timer))
    (reset : ∀ m : Machine, P m.reset)
    (step : ∀ {m m' : Machine}, P m → Step m m' → P m') : P m := by
  induction h with
  | build config valid main mcu timer => exact start config valid main mcu timer
  | reset m => exact reset m
  | request before h ih => exact step ih (step_of_request h)
  | @turn notes m m' target turn log log' before ht h ih =>
    exact step ih (.turn ht (effect_of_take (s := ⟨m, log⟩) ht h))
  | arrive before forward ht ih => exact step ih (.arrive ht)

/-- A machine with a journal has caught up with the time on its clock. -/
theorem Journal.caughtUp {notes : List Note} {m : Machine} (h : Journal notes m) :
    m.CaughtUp m.now :=
  h.invariant (P := fun m => m.CaughtUp m.now) (fun _ _ _ _ _ => caughtUp_zero _)
    (fun _ => caughtUp_zero _) CaughtUp.step

/-- No pending completion is that of a later stall. -/
theorem Journal.completions_le {notes : List Note} {m : Machine} (h : Journal notes m) :
    ∀ e ∈ m.timeline.entries, ∀ generation, e.event = .speechDone generation →
      generation ≤ m.board.stall.generation := by
  refine h.invariant ?_ ?_ fun hold hs => hs.completions_le hold
  · intro config valid main mcu timer e he generation hkind
    exact absurd hkind (not_completion_of_powerOn he generation)
  · intro m e he generation hkind
    exact absurd hkind (not_completion_of_powerOn he generation)

/-- The clock does not go back at a turn. -/
theorem Recorded.now_le {earlier : List Note} {t : Taken} (h : Recorded earlier t) :
    t.before.now ≤ t.time := by
  obtain ⟨target, ht⟩ := h.due
  unfold Taken.time
  rw [h.effect.timing.now]
  exact h.journal.caughtUp.le_turnTime ht

/-- No turn was taken later than the clock shows. -/
theorem Journal.time_le {notes : List Note} {m : Machine} (h : Journal notes m) {t : Taken}
    (ht : .turned t ∈ notes) : t.time ≤ m.now := by
  induction h with
  | build | reset => cases ht
  | request before h ih =>
    rw [(fulfilled_of_perform h).now_eq.1]
    rcases List.mem_cons.1 ht with heq | ht
    · cases heq
    · exact ih ht
  | @turn notes m m' target turn log log' before hturn h ih =>
    have recorded : Recorded notes ⟨m, turn, m'⟩ :=
      ⟨before, ⟨target, hturn⟩, effect_of_take (s := ⟨m, log⟩) hturn h⟩
    rcases List.mem_cons.1 ht with heq | ht
    · cases heq
      exact UInt64.le_refl _
    · exact UInt64.le_trans (ih ht) recorded.now_le
  | arrive before forward hnone ih => exact UInt64.le_trans (ih ht) forward

end Machine

end CardComputer
