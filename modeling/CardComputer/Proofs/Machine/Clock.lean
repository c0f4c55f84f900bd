import CardComputer.Proofs.Machine.Journal
import CardComputer.Proofs.Machine.TimeOrder

/-!
# The clock from call to call

What a machine does in a row of calls (`Machine.deedsIn`) is in time order, and its clock
(`Machine.clocks`) does not go back, exactly if no run is to a time before the present
(`Machine.in_time_iff_forward`). A run to an earlier time does nothing but set the clock back to its
target (`Machine.runUntil_of_le_now`); what a host asks for then is done at the earlier time, after
work that was done later.
-/

namespace CardComputer.Machine

open Op

/-! ## Deeds -/

/-- Something that a machine does: a turn, with the time at which it is taken. -/
structure Deed where
  turn : Turn
  time : UInt64
deriving DecidableEq

/-- What a machine does in a run to a time, in order. A run that fails ends with the deed that
fails. -/
def deeds (target : UInt64) (s : Observed Machine) : List Deed :=
  (actions target [] s).map fun a => ⟨a.turn, a.time⟩

/-- A call that neither switches the machine off nor loads anything. -/
def Call.Steady : Call → Prop
  | reset | load _ => False
  | request _ | runUntil _ | stepFrame => True

/-- The time to which a call runs, if it does. -/
def Call.target? (m : Machine) : Call → Option UInt64
  | runUntil target => some target
  | stepFrame => (checkedAdd m.now m.config.frameCycles).toOption
  | request _ | reset | load _ => none

/-- What a machine does in a call. -/
def Call.deeds (c : Call) (s : Observed Machine) : List Deed :=
  match c.target? s.device with
  | some target => Machine.deeds target s
  | none => []

/-- What a machine does in calls, one after the other. A call that fails is the last one. -/
def deedsIn : List Call → Observed Machine → List Deed
  | [], _ => []
  | c :: calls, s => c.deeds s ++
    match c.perform s with
    | .ok _ t => deedsIn calls t
    | .error _ _ => []

/-- The times that the clock shows before, between and after calls. -/
def clocks : List Call → Observed Machine → List UInt64
  | [], s => [s.device.now]
  | c :: calls, s => s.device.now ::
    match c.perform s with
    | .ok _ t => clocks calls t
    | .error _ _ => []

/-! ## The deeds of a run -/

/-- Turns that are taken before a time are deeds of the run to it. -/
theorem mem_deeds {target : UInt64} {n : Nat} {s t : Observed Machine} {turn : Turn}
    (h : after? target n s = some t) (ht : t.device.turn? target = some turn) :
    (⟨turn, t.device.turnTime turn⟩ : Deed) ∈ deeds target s := by
  unfold deeds
  generalize [] = past
  induction n generalizing s past with
  | zero =>
    cases h
    cases hs : take turn t with
    | ok _ u => simp [actions_of_ok ht hs, Action.time]
    | error f u => simp [actions_of_error ht hs, Action.time]
  | succ n ih =>
    unfold after? at h
    split at h
    · cases h
    · rename_i first hfirst
      obtain ⟨u, hu, h⟩ := Option.bind_eq_some_iff.1 h
      rw [actions_of_ok hfirst (ok_of_state? hu), List.map_cons]
      exact List.mem_cons_of_mem _ (ih h _)

/-- The deeds of a run are not before a time with which the machine has caught up, and before the
target. -/
theorem time_of_mem_deeds {time target : UInt64} {s : Observed Machine} {d : Deed}
    (hs : s.device.CaughtUp time) (hd : d ∈ deeds target s) : time ≤ d.time ∧ d.time < target := by
  obtain ⟨a, ha, rfl⟩ := List.mem_map.1 hd
  obtain ⟨hup, ht⟩ := forall_actions (P := fun _ m => m.CaughtUp time)
    (fun _ _ _ _ hup ht h => hup.effect ht (effect_of_take ht h)) hs a ha
  exact ⟨hup.le_turnTime ht, (due_of_turn? ht).target⟩

/-- The deeds of a run are in time order. -/
theorem pairwise_deeds (target : UInt64) (s : Observed Machine) :
    (deeds target s).Pairwise fun a b => a.time ≤ b.time := by
  unfold deeds
  rw [List.pairwise_map]
  generalize [] = past
  induction past, s using actions_induct target with
  | stop past s ht => simp [actions_of_none ht]
  | fail past s turn f t ht h => simp [actions_of_error ht h]
  | go past s turn t ht h ih =>
    rw [actions_of_ok ht h]
    refine List.pairwise_cons.2 ⟨fun a ha => ?_, ih⟩
    -- With the time of a turn the machine has caught up, and stays so.
    have hup := (caughtUp_turnTime ht).effect ht (effect_of_take ht h)
    obtain ⟨hup, ht'⟩ := forall_actions (P := fun _ m => m.CaughtUp (s.device.turnTime turn))
      (fun _ _ _ _ hup ht h => hup.effect ht (effect_of_take ht h)) hup a ha
    exact hup.le_turnTime ht'

/-! ## One call -/

/-- A call that runs to a time ends like the run. -/
theorem runUntil_of_target? {c : Call} {s s' : Observed Machine} {a : Answer} {target : UInt64}
    (hc : c.target? s.device = some target) (h : c.perform s = .ok a s') :
    runUntil target s = .ok () s' := by
  cases c with
  | runUntil t =>
    obtain rfl := Option.some.inj hc
    obtain ⟨_, u, hu, h⟩ := bind_eq_ok.1 h
    obtain ⟨-, rfl⟩ := pure_eq_ok.1 h
    exact hu
  | stepFrame =>
    obtain ⟨frame, u, hu, h⟩ := bind_eq_ok.1 h
    obtain ⟨-, rfl⟩ := pure_eq_ok.1 h
    obtain ⟨t, ht, hrun, -⟩ := runUntil_of_stepFrame hu
    have hadd : checkedAdd s.device.now s.device.config.frameCycles = .ok t :=
      checkedAdd_eq_ok_iff.2 ht
    rw [Call.target?, hadd] at hc
    obtain rfl := Option.some.inj hc
    exact hrun
  | request r => cases hc
  | reset => cases hc
  | load saved => cases hc

/-- Without a run the clock stands still. -/
theorem now_of_steady {c : Call} {s s' : Observed Machine} {a : Answer} (steady : c.Steady)
    (hc : c.target? s.device = none) (h : c.perform s = .ok a s') :
    s'.device.now = s.device.now := by
  cases c with
  | request r =>
    obtain ⟨_, u, hu, h⟩ := bind_eq_ok.1 h
    obtain ⟨-, rfl⟩ := pure_eq_ok.1 h
    exact (fulfilled_of_perform hu).now_eq.1
  | stepFrame =>
    obtain ⟨frame, u, hu, -⟩ := bind_eq_ok.1 h
    obtain ⟨t, ht, -⟩ := runUntil_of_stepFrame hu
    rw [Call.target?, checkedAdd_eq_ok_iff.2 ht] at hc
    cases hc
  | runUntil t => cases hc
  | reset => exact steady.elim
  | load saved => exact steady.elim

/-- A run to a time before the present only sets the clock back. -/
theorem runUntil_of_le_now {m : Machine} {target : UInt64} (hm : m.CaughtUp m.now)
    (back : target ≤ m.now) (log : Log) :
    runUntil target ⟨m, log⟩ = .ok () ⟨arrive target m, log⟩ := by
  have hup : m.CaughtUp target :=
    ⟨fun e he => UInt64.le_trans back (hm.events e he), UInt64.le_trans back hm.mcu,
      fun hs => UInt64.le_trans back (hm.main hs)⟩
  have hturns : turns target ⟨m, log⟩ = .ok () ⟨m, log⟩ :=
    turns_of_none (turn?_eq_none.2 hup)
  exact runUntil_eq_ok.2 ⟨_, hturns, rfl⟩

/-- The deeds of a call lie between the times that the clock shows before and after it, unless it is
a run to an earlier time. -/
theorem Call.deeds_between {c : Call} {s s' : Observed Machine} {a : Answer} (steady : c.Steady)
    (hs : s.device.CaughtUp s.device.now) (forward : c.Forward s.device)
    (h : c.perform s = .ok a s') :
    s.device.now ≤ s'.device.now ∧ ∀ d ∈ c.deeds s, d.time ≤ s'.device.now := by
  unfold Call.deeds
  cases hc : c.target? s.device with
  | none =>
    rw [now_of_steady steady hc h]
    exact ⟨UInt64.le_refl _, nofun⟩
  | some target =>
    rw [(arrived_of_runUntil (runUntil_of_target? hc h)).1]
    refine ⟨?_, fun d hd => UInt64.le_of_lt (time_of_mem_deeds hs hd).2⟩
    cases c with
    | runUntil t =>
      obtain rfl := Option.some.inj hc
      exact forward
    | stepFrame =>
      obtain ⟨frame, u, hu, -⟩ := bind_eq_ok.1 h
      obtain ⟨t, ht, -⟩ := runUntil_of_stepFrame hu
      rw [Call.target?, checkedAdd_eq_ok_iff.2 ht] at hc
      obtain rfl := Option.some.inj hc
      rw [UInt64.le_iff_toNat_le]
      omega
    | request r => cases hc
    | reset => cases hc
    | load saved => cases hc

/-- The deeds of a call are in time order, and none is before the present. -/
theorem Call.deeds_in_time (c : Call) {s : Observed Machine}
    (hs : s.device.CaughtUp s.device.now) :
    (c.deeds s).Pairwise (fun a b => a.time ≤ b.time) ∧
      ∀ d ∈ c.deeds s, s.device.now ≤ d.time := by
  unfold Call.deeds
  cases c.target? s.device with
  | none => exact ⟨.nil, nofun⟩
  | some target => exact ⟨pairwise_deeds target s, fun d hd => (time_of_mem_deeds hs hd).1⟩

/-- A steady call continues a history. -/
theorem History.steady {c : Call} {past : List Machine} {s s' : Observed Machine} {a : Answer}
    (before : History past s.device) (steady : c.Steady) (h : c.perform s = .ok a s') :
    ∃ past', History past' s'.device := by
  refine before.perform (fun saved hc => ?_) h
  subst hc
  exact steady.elim

/-! ## Calls in a row -/

section Calls

variable {calls : List Call} {past : List Machine} {s : Observed Machine}

/-- The first time is the present. -/
theorem now_mem_clocks (calls : List Call) (s : Observed Machine) :
    s.device.now ∈ clocks calls s := by
  cases calls with
  | nil => exact List.mem_singleton_self _
  | cons c calls => exact List.mem_cons_self

/-- The clock of a machine whose runs do not go back shows no time before the present. -/
theorem clocks_of_forward (hs : History past s.device) (steady : ∀ c ∈ calls, c.Steady)
    (forward : AllForward calls s) :
    (clocks calls s).Pairwise (· ≤ ·) ∧ ∀ time ∈ clocks calls s, s.device.now ≤ time := by
  induction calls generalizing past s with
  | nil => simp [clocks]
  | cons c calls ih =>
    obtain ⟨hc, hcalls⟩ := List.forall_mem_cons.1 steady
    unfold clocks
    cases h : c.perform s with
    | error f t => simp
    | ok a t =>
      obtain ⟨past', hpast⟩ := hs.steady hc h
      have hnow := (Call.deeds_between hc hs.caughtUp forward.1 h).1
      obtain ⟨hsorted, hle⟩ := ih hpast hcalls (forward.2 a t h)
      have hlater : ∀ time ∈ clocks calls t, s.device.now ≤ time :=
        fun time htime => UInt64.le_trans hnow (hle time htime)
      refine ⟨List.pairwise_cons.2 ⟨hlater, hsorted⟩, fun time htime => ?_⟩
      rcases List.mem_cons.1 htime with rfl | htime
      · exact UInt64.le_refl _
      · exact hlater time htime

/-- What a machine does in calls is in time order and not before the present, if no run goes back.
-/
theorem deedsIn_of_forward (hs : History past s.device) (steady : ∀ c ∈ calls, c.Steady)
    (forward : AllForward calls s) :
    (deedsIn calls s).Pairwise (fun a b => a.time ≤ b.time) ∧
      ∀ d ∈ deedsIn calls s, s.device.now ≤ d.time := by
  induction calls generalizing past s with
  | nil => exact ⟨.nil, nofun⟩
  | cons c calls ih =>
    obtain ⟨hc, hcalls⟩ := List.forall_mem_cons.1 steady
    obtain ⟨hfirst, hpresent⟩ := c.deeds_in_time hs.caughtUp
    unfold deedsIn
    cases h : c.perform s with
    | error f t =>
      rw [List.append_nil]
      exact ⟨hfirst, hpresent⟩
    | ok a t =>
      obtain ⟨past', hpast⟩ := hs.steady hc h
      obtain ⟨hnow, hbefore⟩ := Call.deeds_between hc hs.caughtUp forward.1 h
      obtain ⟨hrest, hlater⟩ := ih hpast hcalls (forward.2 a t h)
      -- The clock after the first call parts its deeds from those of the others.
      refine ⟨List.pairwise_append.2 ⟨hfirst, hrest, fun d hd d' hd' => ?_⟩, fun d hd => ?_⟩
      · exact UInt64.le_trans (hbefore d hd) (hlater d' hd')
      · rcases List.mem_append.1 hd with hd | hd
        · exact hpresent d hd
        · exact UInt64.le_trans hnow (hlater d hd)

/-- If the clock does not go back, no run does. -/
theorem forward_of_clocks (hs : History past s.device) (steady : ∀ c ∈ calls, c.Steady)
    (sorted : (clocks calls s).Pairwise (· ≤ ·)) : AllForward calls s := by
  induction calls generalizing past s with
  | nil => trivial
  | cons c calls ih =>
    obtain ⟨hc, hcalls⟩ := List.forall_mem_cons.1 steady
    unfold clocks at sorted
    refine ⟨?_, fun a t h => ?_⟩
    · cases c with
      | runUntil target =>
        rcases UInt64.le_total s.device.now target with hle | hback
        · exact hle
        · -- A run that goes back succeeds, and the clock shows its target next.
          have hrun : Call.perform (.runUntil target) s =
              .ok .done ⟨arrive target s.device, s.log⟩ :=
            bind_of_ok (runUntil_of_le_now hs.caughtUp hback s.log)
          rw [hrun] at sorted
          exact (List.pairwise_cons.1 sorted).1 _ (now_mem_clocks calls _)
      | request r => trivial
      | stepFrame => trivial
      | reset => exact hc.elim
      | load saved => exact hc.elim
    · rw [h] at sorted
      obtain ⟨past', hpast⟩ := hs.steady hc h
      exact ih hpast hcalls (List.pairwise_cons.1 sorted).2

end Calls

/-- The clock does not go back over calls that neither reset the machine nor load anything, and what
the machine does in them is done in time order and not before the present, exactly if no run is to a
time before the present. -/
theorem in_time_iff_forward {past : List Machine} {m : Machine} (hm : History past m)
    {calls : List Call} (steady : ∀ c ∈ calls, c.Steady) (log : Log) :
    ((clocks calls ⟨m, log⟩).Pairwise (· ≤ ·) ∧
      (deedsIn calls ⟨m, log⟩).Pairwise (fun a b => a.time ≤ b.time) ∧
      ∀ d ∈ deedsIn calls ⟨m, log⟩, m.now ≤ d.time) ↔ AllForward calls ⟨m, log⟩ := by
  have hs : History past (⟨m, log⟩ : Observed Machine).device := hm
  constructor
  · rintro ⟨sorted, -⟩
    exact forward_of_clocks hs steady sorted
  · intro forward
    exact ⟨(clocks_of_forward hs steady forward).1, deedsIn_of_forward hs steady forward⟩

/-- A reader that runs, swipes a card and runs on from there does everything in time. -/
theorem reader_in_time :
    AllForward [.runUntil 10, .request (.swipe (.truncate 5)), .runUntil 20] ⟨reader, .fresh⟩ ∧
    (deedsIn [.runUntil 10, .request (.swipe (.truncate 5)), .runUntil 20]
      ⟨reader, .fresh⟩).Pairwise fun a b => a.time ≤ b.time := by
  have hm : History [] reader := .build _ _ _ _ _
  have steady : ∀ c ∈ [Call.runUntil 10, .request (.swipe (.truncate 5)), .runUntil 20],
      c.Steady := by
    simp [Call.Steady]
  have forward : AllForward [.runUntil 10, .request (.swipe (.truncate 5)), .runUntil 20]
      ⟨reader, .fresh⟩ := by
    refine ⟨UInt64.zero_le, fun a s hs => ⟨trivial, fun b t ht => ⟨?_, fun _ _ _ => trivial⟩⟩⟩
    -- The clock shows the target of the first run, and a swipe takes no time.
    have hnow : s.device.now = 10 := (arrived_of_runUntil (runUntil_of_target? rfl hs)).1
    have hsame : t.device.now = s.device.now := now_of_steady (by trivial) rfl ht
    show t.device.now ≤ 20
    rw [hsame, hnow]
    decide
  exact ⟨forward, ((in_time_iff_forward hm steady .fresh).2 forward).2.1⟩

/-- Calls with a run to a time before the present, and a swipe after it. -/
def backward : List Call :=
  [.runUntil 10, .runUntil 5, .request (.swipe (.truncate 5)), .runUntil 6]

/-- The clock of a reader goes back, and a card is swiped at the fifth cycle after the coprocessor
has made its step of the eighth. -/
theorem reader_goes_back :
    ¬ (clocks backward ⟨reader, .fresh⟩).Pairwise (· ≤ ·) ∧
      List.Sublist [⟨.mcu, 8⟩, ⟨.event, 5⟩] (deedsIn backward ⟨reader, .fresh⟩) := by
  have hstep : ((after? 10 7 ⟨reader, .fresh⟩).any fun s =>
      s.device.turn? 10 = some .mcu ∧ s.device.turnTime .mcu = 8) = true := by
    decide +kernel
  have hswiped : ((after? 10 10 ⟨reader, .fresh⟩).any fun s => s.device.turn? 10 = none ∧
      (state? (swipe (.truncate 5)) ⟨arrive 5 (arrive 10 s.device), s.log⟩).any fun u =>
        u.device.turn? 6 = some .event ∧ u.device.turnTime .event = 5) = true := by
    decide +kernel
  obtain ⟨r, hr, hmcu⟩ := (Option.any_eq_true _ _).1 hstep
  obtain ⟨hmcu, hmcuTime⟩ := of_decide_eq_true hmcu
  obtain ⟨s, hs, hrest⟩ := (Option.any_eq_true _ _).1 hswiped
  obtain ⟨hidle, hrest⟩ := of_decide_eq_true hrest
  obtain ⟨u, hu, hevent⟩ := (Option.any_eq_true _ _).1 hrest
  obtain ⟨hevent, heventTime⟩ := of_decide_eq_true hevent
  -- The first three calls, one after the other.
  have hrun : runUntil 10 ⟨reader, .fresh⟩ = .ok () ⟨arrive 10 s.device, s.log⟩ :=
    runUntil_eq_ok.2 ⟨s, turns_of_after? hs hidle, rfl⟩
  have hback : runUntil 5 ⟨arrive 10 s.device, s.log⟩ =
      .ok () ⟨arrive 5 (arrive 10 s.device), s.log⟩ :=
    runUntil_of_le_now (arrived_of_runUntil hrun).2.1 (by decide : (5 : UInt64) ≤ 10) s.log
  have first : Call.perform (.runUntil 10) ⟨reader, .fresh⟩ = .ok .done _ := bind_of_ok hrun
  have second : Call.perform (.runUntil 5) _ = .ok .done _ := bind_of_ok hback
  have third : Call.perform (.request (.swipe (.truncate 5))) _ = .ok .done _ :=
    bind_of_ok (ok_of_state? hu)
  constructor
  · intro sorted
    simp only [backward, clocks, first] at sorted
    rw [second] at sorted
    -- The clock shows 10, and 5 after that.
    have later := (List.pairwise_cons.1 (List.pairwise_cons.1 sorted).2).1
    have hle : (10 : UInt64) ≤ 5 := later _ List.mem_cons_self
    exact absurd hle (by decide)
  · have hmcu : (⟨.mcu, 8⟩ : Deed) ∈ deeds 10 ⟨reader, .fresh⟩ := hmcuTime ▸ mem_deeds hr hmcu
    have hevent : (⟨.event, 5⟩ : Deed) ∈ deeds 6 u := heventTime ▸ mem_deeds (n := 0) rfl hevent
    simp only [backward, deedsIn, first]
    rw [second]
    dsimp only
    rw [third]
    refine (List.singleton_sublist.2 hmcu).append (List.singleton_sublist.2 ?_)
    exact List.mem_append_right _ (List.mem_append_right _ (List.mem_append_left _ hevent))

end CardComputer.Machine
