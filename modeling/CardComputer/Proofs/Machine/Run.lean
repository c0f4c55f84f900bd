import CardComputer.Machine.Run
import CardComputer.Proofs.Machine.Effect
import CardComputer.Proofs.Op.Simulation

/-!
# Runs

What holds of every turn holds of a run of turns: the induction over the turns before a time
(`Machine.turns_induct`), what runs keep (`Machine.turns_invariant`), and how two runs are compared
turn by turn (`Machine.sim_turns`), the turn of a processor by its step (`Machine.sim_stepUnit`).
-/

namespace CardComputer.Machine

open Op

/-! ## Turns and times -/

/-- The turns before a time, as an operation. -/
def turns (target : UInt64) : Op Machine Unit := runTurns target

/-- A run takes its turns and arrives. -/
theorem runUntil_eq (target : UInt64) :
    runUntil target = (do turns target; Op.update (arrive target)) := rfl

/-- Without a turn a run is over. -/
theorem turns_of_none {target : UInt64} {s : Observed Machine}
    (h : s.device.turn? target = none) : turns target s = .ok () s := by
  unfold turns
  rw [runTurns]
  split
  · rfl
  · rename_i turn ht
    rw [h] at ht
    cases ht

/-- A run begins with the turn of the machine. -/
theorem turns_of_some {target : UInt64} {s : Observed Machine} {turn : Turn}
    (h : s.device.turn? target = some turn) :
    turns target s = (do take turn; turns target) s := by
  unfold turns
  rw [runTurns]
  split
  · rename_i ht
    rw [h] at ht
    cases ht
  · rename_i turn' ht
    obtain rfl := Option.some.inj (h.symm.trans ht)
    split
    · rename_i t hs
      symm
      exact bind_of_ok hs
    · rename_i f t hs
      symm
      exact bind_of_error hs

/-- An induction over the turns before a time. -/
theorem turns_induct (target : UInt64) {motive : Observed Machine → Prop}
    (stop : ∀ s, s.device.turn? target = none → motive s)
    (go : ∀ s turn, s.device.turn? target = some turn →
      (∀ t, take turn s = .ok () t → motive t) → motive s) (s : Observed Machine) : motive s := by
  -- The induction is on the work that is left.
  generalize hn : s.device.agenda.work target = n
  induction n using Nat.strongRecOn generalizing s with
  | ind n ih =>
    cases ht : s.device.turn? target with
    | none => exact stop s ht
    | some turn =>
      refine go s turn ht fun t hs => ih _ ?_ t rfl
      rw [← hn]
      exact work_take_lt ht hs

/-- Whoever has the turn before a time has it before every later time. -/
theorem turn?_mono {m : Machine} {a b : UInt64} (hab : a ≤ b) {turn : Turn}
    (h : m.turn? a = some turn) : m.turn? b = some turn := by
  unfold turn? at h ⊢
  rw [UInt64.le_iff_toNat_le] at hab
  split at h
  · cases h
  · rename_i hlt
    rw [if_neg]
    · exact h
    · intro hle
      rw [UInt64.le_iff_toNat_le] at hlt hle
      omega

/-- A machine whose main unit gives the speech unit a word in its first step, for which its timer
allows a hundred microseconds. -/
def talker : Machine :=
  build .standard Config.valid_standard (.ofScript #[⟨.store Board.speechBase 7, 4⟩] false)
    (.ofScript #[] false) (some (.fixed 100))

/-- The configuration with the clock, a card and a display that are as fast as the processors. -/
def fast : Config :=
  { Config.standard with masterClockHz := 1000000, barcodeShiftUs := 4, displayTickUs := 3 }

/-- A machine whose coprocessor reads the card sensor in every step. -/
def reader : Machine :=
  build fast (by decide) (.ofScript #[] false)
    (.ofScript #[⟨.input Port.t0.address, 4⟩] true) none

/-- The machine after an operation, if it succeeds. -/
def state? {α : Type} (op : Op Machine α) (s : Observed Machine) : Option (Observed Machine) :=
  match op s with
  | .ok _ t => some t
  | .error _ _ => none

theorem ok_of_state? {op : Op Machine Unit} {s t : Observed Machine} (h : state? op s = some t) :
    op s = .ok () t := by
  unfold state? at h
  split at h
  · rename_i u hu
    cases h
    exact hu
  · cases h

/-- The machine after a number of turns before a time, if there are so many and none fails. -/
def after? (target : UInt64) : Nat → Observed Machine → Option (Observed Machine)
  | 0, s => some s
  | n + 1, s =>
    match s.device.turn? target with
    | none => none
    | some turn => (state? (take turn) s).bind (after? target n)

/-- A run whose turns are known. -/
theorem turns_of_after? {target : UInt64} {n : Nat} {s t : Observed Machine}
    (h : after? target n s = some t) (ht : t.device.turn? target = none) :
    turns target s = .ok () t := by
  induction n generalizing s with
  | zero =>
    cases h
    exact turns_of_none ht
  | succ n ih =>
    unfold after? at h
    split at h
    · cases h
    · rename_i turn hturn
      obtain ⟨u, hu, h⟩ := Option.bind_eq_some_iff.1 h
      rw [turns_of_some hturn, bind_of_ok (ok_of_state? hu)]
      exact ih h

/-! ## What runs keep -/

/-- A successful run of turns keeps what every turn keeps, and leaves nothing to do before the
time. -/
theorem turns_invariant {P : Machine → Prop} {target : UInt64}
    (step : ∀ m turn m', P m → m.turn? target = some turn → Effect m turn m' → P m')
    {s s' : Observed Machine} (hs : P s.device) (h : turns target s = .ok () s') :
    P s'.device ∧ s'.device.turn? target = none := by
  induction s using turns_induct target with
  | stop s ht =>
    rw [turns_of_none ht] at h
    cases h
    exact ⟨hs, ht⟩
  | go s turn ht ih =>
    rw [turns_of_some ht] at h
    obtain ⟨_, t, hstep, h⟩ := bind_eq_ok.1 h
    exact ih t hstep (step _ _ _ hs ht (effect_of_take ht hstep)) h

/-- A successful run ends with an arrival. -/
theorem runUntil_eq_ok {target : UInt64} {s s' : Observed Machine} :
    runUntil target s = .ok () s' ↔
      ∃ t, turns target s = .ok () t ∧ s' = { t with device := arrive target t.device } := by
  rw [runUntil_eq, bind_eq_ok]
  constructor
  · rintro ⟨_, t, ht, h⟩
    exact ⟨t, ht, (update_eq_ok.1 h).symm⟩
  · rintro ⟨t, ht, rfl⟩
    exact ⟨(), t, ht, rfl⟩

/-! ## Steps and runs side by side -/

/-- Two steps of a processor agree if the processors are the same and their accesses agree. -/
theorem sim_stepUnit {Excused : Fault → Prop} {R : Observed Machine → Observed Machine → Prop}
    {get : Machine → Processor} {set : Processor → Machine → Machine} {bus : Bus Board}
    (same : ∀ s t, R s t → get t.device = get s.device)
    (put : ∀ p, Sim Excused R R (· = ·) (update (set p)) (update (set p)))
    (access : ∀ a : Access,
      Sim Excused R R (· = ·) (onBoard (a.perform bus)) (onBoard (a.perform bus))) :
    Sim Excused R R (· = ·) (stepUnit get set bus) (stepUnit get set bus) := by
  refine sim_bind sim_device ?_
  rintro _ _ ⟨s, t, hst, rfl, rfl⟩
  -- Both fetch the same instruction.
  rw [same s t hst]
  split
  · exact sim_bind (put _) fun _ _ _ => sim_pure rfl
  · refine sim_bind (put _) fun _ _ _ => ?_
    refine sim_bind (access _) ?_
    rintro read _ rfl
    have retire : Sim Excused R R (· = ·) (update fun m => set ((get m).retire read) m)
        (update fun m => set ((get m).retire read) m) := by
      intro s t hst
      change Agree Excused (· = ·) R (update (set ((get s.device).retire read)) s)
        (update (set ((get t.device).retire read)) t)
      rw [same s t hst]
      exact put _ s t hst
    exact sim_bind retire fun _ _ _ => sim_pure rfl

/-- Two runs agree if their turns do, and end where neither has a turn. -/
theorem sim_turns {Excused : Fault → Prop} {R : Observed Machine → Observed Machine → Prop}
    {target : UInt64} (turn : ∀ s t, R s t → t.device.turn? target = s.device.turn? target)
    (step : ∀ s t turn, R s t → s.device.turn? target = some turn →
      Agree Excused (· = ·) R (take turn s) (take turn t)) :
    Sim Excused R (fun s t => R s t ∧ s.device.turn? target = none) (· = ·)
      (turns target) (turns target) := by
  intro s
  induction s using turns_induct target with
  | stop s hs =>
    intro t hst
    rw [turns_of_none hs, turns_of_none ((turn s t hst).trans hs)]
    exact .ok rfl ⟨hst, hs⟩
  | go s next hs ih =>
    intro t hst
    rw [turns_of_some hs, turns_of_some ((turn s t hst).trans hs)]
    -- The first turns agree, and what follows is known of the state that the first one leaves.
    have first : Sim Excused (fun s' t' => s' = s ∧ t' = t)
        (fun s' t' => R s' t' ∧ take next s = .ok () s') (· = ·) (take next) (take next) := by
      rintro _ _ ⟨rfl, rfl⟩
      exact (step _ _ next hst hs).and_left fun _ _ hr => hr
    refine sim_bind first (fun _ _ _ => ?_) s t ⟨rfl, rfl⟩
    rintro s' t' ⟨hst', hs'⟩
    exact ih s' hs' t' hst'

/-- Turns before a time come before the other turns before a later time. -/
theorem turns_turns {a b : UInt64} (hab : a ≤ b) (s : Observed Machine) :
    (do turns a; turns b : Op Machine Unit) s = turns b s := by
  induction s using turns_induct a with
  | stop s hs => exact bind_of_ok (turns_of_none hs)
  | go s turn hs ih =>
    -- A turn before `a` is the same turn before `b`.
    have whole := turns_of_some (turn?_mono hab hs)
    have chunk := turns_of_some hs
    cases hstep : take turn s with
    | ok _ t =>
      calc
        _ = (do turns a; turns b : Op Machine Unit) t :=
          bind_congr_run (chunk.trans (bind_of_ok hstep))
        _ = turns b t := ih t hstep
        _ = turns b s := (whole.trans (bind_of_ok hstep)).symm
    | error f t =>
      rw [whole, bind_of_error hstep]
      exact bind_of_error (chunk.trans (bind_of_error hstep))

end CardComputer.Machine
