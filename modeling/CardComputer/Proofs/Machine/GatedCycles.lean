import CardComputer.Proofs.Machine.Clock

/-!
# The cycles of the main unit

The stall control counts the cycles that the main unit is allowed to run. It looks at the board
after the step whose cycles it counts, so it misses those of every step that gives the speech unit a
word: by then the stall of that word has begun. What every turn adds to the cycles of the main unit
is either counted or missed (`Machine.accounts_of_take`), and so for the actions of a run
(`Machine.accounts_of_turns`) and of calls in a row (`Machine.accounts_of_performAll`). Hence all
cycles are counted exactly if no stall was begun (`Machine.all_cycles_counted_iff`).
-/

namespace CardComputer

/-- A step is counted when its instruction is fetched. -/
theorem Processor.steps_fetch (p : Processor) : p.fetch.2.steps = p.steps + 1 := by
  unfold fetch
  dsimp only
  split <;> rfl

theorem Processor.Step.steps_eq {bus : Bus Board} {p p' : Processor} {b b' : Board}
    {cycles : UInt32} (h : p.Step bus b p' b' cycles) : p'.steps = p.steps + 1 := by
  rw [← p.steps_fetch]
  cases h with
  | idle fetch => rw [fetch]
  | access fetch performed =>
    rw [fetch]
    rfl

namespace Machine

open Op

/-! ## Actions of calls -/

/-- What a machine does in a call. -/
def Call.actions (c : Call) (s : Observed Machine) : List Action :=
  match c.target? s.device with
  | some target => Machine.actions target [] s
  | none => []

/-- What a machine does in calls, one after the other. A call that fails is the last one. -/
def actionsIn : List Call → Observed Machine → List Action
  | [], _ => []
  | c :: calls, s => c.actions s ++
    match c.perform s with
    | .ok _ t => actionsIn calls t
    | .error _ _ => []

/-- Whether an action is a step of the main unit. -/
def Action.isMain (a : Action) : Bool := a.turn = .main

/-- Whether an action is a step of the main unit that gives the speech unit a word. -/
def Action.speaks (a : Action) : Bool :=
  a.isMain && (a.machine.main.word? a.machine.board).isSome

/-- The cycles of all steps of the main unit. -/
def mainCycles : List Action → Nat
  | [] => 0
  | a :: actions => (if a.isMain then a.machine.main.nextCycles.toNat else 0) + mainCycles actions

/-- The cycles of the steps of the main unit that give the speech unit a word. -/
def speechCycles (actions : List Action) : Nat :=
  mainCycles (actions.filter Action.speaks)

theorem mainCycles_append (l l' : List Action) :
    mainCycles (l ++ l') = mainCycles l + mainCycles l' := by
  induction l with
  | nil => simp [mainCycles]
  | cons a l ih => simp [mainCycles, ih, Nat.add_assoc]

theorem speechCycles_append (l l' : List Action) :
    speechCycles (l ++ l') = speechCycles l + speechCycles l' := by
  unfold speechCycles
  rw [List.filter_append, mainCycles_append]

/-- Every step takes at least a cycle. -/
theorem one_le_nextCycles (p : Processor) : 1 ≤ p.nextCycles.toNat := by
  unfold Processor.nextCycles
  cases p.fetch.1 with
  | none => decide
  | some i => exact one_le_max_one _

/-- The steps that give the speech unit a word take no cycles only if there are none. -/
theorem speechCycles_eq_zero_iff {l : List Action} :
    speechCycles l = 0 ↔ l.countP Action.speaks = 0 := by
  induction l with
  | nil => simp [speechCycles, mainCycles]
  | cons a l ih =>
    have hpos := one_le_nextCycles a.machine.main
    by_cases ha : a.speaks
    · have hmain : a.isMain := (Bool.and_eq_true_iff.1 ha).1
      simp [speechCycles, mainCycles, ha, hmain]
      omega
    · simpa [speechCycles, ha] using ih

/-! ## Accounts -/

/-- The actions by which one machine became the other account for the steps, the stalls and the
cycles of its main unit. -/
structure Accounts (actions : List Action) (m m' : Machine) : Prop where
  /-- The main unit is not stalled when it steps. -/
  running : ∀ a ∈ actions, a.isMain → a.machine.isStalled = false
  steps : m'.main.steps = m.main.steps + actions.countP Action.isMain
  stalls : m'.board.stall.generation.toNat =
    m.board.stall.generation.toNat + actions.countP Action.speaks
  /-- The cycles of a step are counted unless it gives the speech unit a word. -/
  cycles : m'.board.stall.gatedCycles.toNat + speechCycles actions =
    m.board.stall.gatedCycles.toNat + mainCycles actions

namespace Accounts

/-- Without actions there is nothing to account for. -/
theorem nil {m m' : Machine} (steps : m'.main.steps = m.main.steps)
    (stall : m'.board.stall = m.board.stall) : Accounts [] m m' where
  running _ ha := absurd ha List.not_mem_nil
  steps := by rw [steps, List.countP_nil, Nat.add_zero]
  stalls := by rw [stall, List.countP_nil, Nat.add_zero]
  cycles := by simp [stall, speechCycles, mainCycles]

theorem append {l l' : List Action} {m m' m'' : Machine} (h : Accounts l m m')
    (h' : Accounts l' m' m'') : Accounts (l ++ l') m m'' where
  running a ha := by
    rcases List.mem_append.1 ha with ha | ha
    · exact h.running a ha
    · exact h'.running a ha
  steps := by rw [h'.steps, h.steps, List.countP_append, Nat.add_assoc]
  stalls := by rw [h'.stalls, h.stalls, List.countP_append, Nat.add_assoc]
  cycles := by
    have hl := h.cycles
    have hl' := h'.cycles
    rw [mainCycles_append, speechCycles_append]
    omega

/-- Nor is there for an event or a step of the coprocessor. -/
theorem other {past : List Machine} {m m' : Machine} {turn : Turn} (hturn : turn ≠ .main)
    (steps : m'.main.steps = m.main.steps)
    (generation : m'.board.stall.generation = m.board.stall.generation)
    (gatedCycles : m'.board.stall.gatedCycles = m.board.stall.gatedCycles) :
    Accounts [⟨past, m, turn⟩] m m' where
  running a ha hmain := by
    obtain rfl := List.mem_singleton.1 ha
    exact absurd (of_decide_eq_true hmain) hturn
  steps := by simp [Action.isMain, hturn, steps]
  stalls := by simp [Action.speaks, Action.isMain, hturn, generation]
  cycles := by simp [speechCycles, mainCycles, Action.speaks, Action.isMain, hturn, gatedCycles]

/-- What a step of the main unit adds to its cycles is counted, or missed if the step begins a
stall. -/
theorem main {past : List Machine} {m m' : Machine} (running : m.isStalled = false)
    (steps : m'.main.steps = m.main.steps + 1)
    (generation : m'.board.stall.generation.toNat = m.board.stall.generation.toNat +
      if (m.main.word? m.board).isSome then 1 else 0)
    (gatedCycles : m'.board.stall.gatedCycles.toNat = m.board.stall.gatedCycles.toNat +
      if (m.main.word? m.board).isSome then 0 else m.main.nextCycles.toNat) :
    Accounts [⟨past, m, .main⟩] m m' where
  running a ha _ := by
    obtain rfl := List.mem_singleton.1 ha
    exact running
  steps := by simp [Action.isMain, steps]
  stalls := by
    rw [generation]
    by_cases hword : (m.main.word? m.board).isSome <;> simp [Action.speaks, Action.isMain, hword]
  cycles := by
    rw [gatedCycles]
    by_cases hword : (m.main.word? m.board).isSome <;>
      simp [speechCycles, mainCycles, Action.speaks, Action.isMain, hword]

end Accounts

/-- A turn accounts for what it adds. -/
theorem accounts_of_take {past : List Machine} {target : UInt64} {turn : Turn}
    {s t : Observed Machine} (ht : s.device.turn? target = some turn)
    (h : take turn s = .ok () t) : Accounts [⟨past, s.device, turn⟩] s.device t.device := by
  have effect := effect_of_take ht h
  generalize t.device = m' at effect
  cases effect with
  | mcu step later =>
    have stall := congrArg Board.Remote.stall step.remote_eq
    exact .other (by decide) rfl (congrArg StallControl.generation stall)
      (congrArg StallControl.gatedCycles stall)
  | main step counted later times =>
    have running := (turn?_eq_main ht).1
    rw [step.cycles_eq] at counted
    rcases step.main_cases with ⟨hword, mailbox, rfl⟩ | ⟨word, hword, ⟨hstalled, -⟩ |
      ⟨-, generation, hnext, rfl⟩⟩
    · rw [word?_setTime] at hword
      refine .main running step.steps_eq ?_ ?_
      · simp [hword, Board.setTime]
      · have hrun : s.device.board.stall.isStalled = false := running
        simpa [hword, Board.setTime, hrun] using counted
    · -- A stalled main unit has no turn.
      have hrun : s.device.board.stall.isStalled = false := running
      simp [StallControl.isStalled, Board.setTime] at hrun hstalled
      exact absurd hstalled hrun
    · rw [word?_setTime] at hword
      -- The stall control sees the stall that has just begun, and counts nothing.
      refine .main running step.steps_eq ?_ ?_
      · simpa [hword, Board.setTime, StallControl.begun] using hnext
      · simpa [hword, Board.setTime, StallControl.begun, StallControl.isStalled] using counted
  | _ => exact .other (by decide) rfl rfl rfl

/-- The actions of a run of turns account for what it adds. -/
theorem accounts_of_turns {past : List Machine} {target : UInt64} {s t : Observed Machine}
    (h : turns target s = .ok () t) : Accounts (actions target past s) s.device t.device := by
  induction past, s using actions_induct target with
  | stop past s ht =>
    rw [turns_of_none ht] at h
    cases h
    rw [actions_of_none ht]
    exact .nil rfl rfl
  | fail past s turn f u ht hs =>
    rw [turns_of_some ht, bind_of_error hs] at h
    cases h
  | go past s turn u ht hs ih =>
    rw [turns_of_some ht, bind_of_ok hs] at h
    rw [actions_of_ok ht hs]
    exact (accounts_of_take ht hs).append (ih h)

/-- So do the actions of a call. -/
theorem accounts_of_perform {c : Call} {s t : Observed Machine} {a : Answer} (steady : c.Steady)
    (h : c.perform s = .ok a t) : Accounts (c.actions s) s.device t.device := by
  unfold Call.actions
  cases hc : c.target? s.device with
  | some target =>
    -- The arrival at the target changes neither the steps nor the stall control.
    obtain ⟨u, hu, rfl⟩ := runUntil_eq_ok.1 (runUntil_of_target? hc h)
    have accounts : Accounts (Machine.actions target [] s) s.device u.device := accounts_of_turns hu
    exact ⟨accounts.running, accounts.steps, accounts.stalls, accounts.cycles⟩
  | none =>
    cases c with
    | request r =>
      obtain ⟨_, u, hu, h⟩ := bind_eq_ok.1 h
      obtain ⟨-, rfl⟩ := pure_eq_ok.1 h
      have fulfilled := fulfilled_of_perform hu
      refine .nil ?_ fulfilled.main_eq.2
      generalize u.device = m' at fulfilled
      cases fulfilled <;> rfl
    | stepFrame =>
      obtain ⟨frame, u, hu, -⟩ := bind_eq_ok.1 h
      obtain ⟨target, htarget, -⟩ := runUntil_of_stepFrame hu
      rw [Call.target?, checkedAdd_eq_ok_iff.2 htarget] at hc
      cases hc
    | runUntil target => cases hc
    | reset => exact steady.elim
    | load saved => exact steady.elim

/-- So do those of calls in a row. -/
theorem accounts_of_performAll {calls : List Call} {s t : Observed Machine} {answers : List Answer}
    (steady : ∀ c ∈ calls, c.Steady) (h : performAll calls s = .ok answers t) :
    Accounts (actionsIn calls s) s.device t.device := by
  induction calls generalizing s answers with
  | nil =>
    obtain ⟨-, rfl⟩ := pure_eq_ok.1 h
    exact .nil rfl rfl
  | cons c calls ih =>
    obtain ⟨hc, hcalls⟩ := List.forall_mem_cons.1 steady
    obtain ⟨answer, u, hu, h⟩ := bind_eq_ok.1 h
    obtain ⟨answers', v, hv, h⟩ := bind_eq_ok.1 h
    obtain ⟨-, rfl⟩ := pure_eq_ok.1 h
    rw [actionsIn, hu]
    exact (accounts_of_perform hc hu).append (ih hcalls hv)

/-! ## Since power-on -/

/-- A machine that has just been switched on, whatever it did before. -/
inductive SwitchedOn : Machine → Prop
  | build (config : Config) (valid : config.Valid) (main mcu : Processor)
    (timer : Option PlaybackTimer) : SwitchedOn (build config valid main mcu timer)
  | reset (m : Machine) : SwitchedOn m.reset

theorem SwitchedOn.stall_eq {m : Machine} (h : SwitchedOn m) : m.board.stall = .fresh := by
  cases h <;> rfl

/-- All cycles of the main unit since power-on are counted exactly if no stall was begun. The main
unit steps only while it is not stalled, and it begins as many stalls as it steps with a word for
the speech unit. The cycles of these steps are missed, and those of all its other steps are counted;
every cycle is, if there was no stall, and not otherwise. -/
theorem all_cycles_counted_iff {m : Machine} (start : SwitchedOn m) {calls : List Call}
    (steady : ∀ c ∈ calls, c.Steady) {log : Log} {answers : List Answer} {s : Observed Machine}
    (h : performAll calls ⟨m, log⟩ = .ok answers s) :
    (∀ a ∈ actionsIn calls ⟨m, log⟩, a.isMain → a.machine.isStalled = false) ∧
    s.device.main.steps = m.main.steps + (actionsIn calls ⟨m, log⟩).countP Action.isMain ∧
    s.device.board.stall.generation.toNat =
      (actionsIn calls ⟨m, log⟩).countP Action.speaks ∧
    s.device.board.stall.gatedCycles.toNat + speechCycles (actionsIn calls ⟨m, log⟩) =
      mainCycles (actionsIn calls ⟨m, log⟩) ∧
    (s.device.board.stall.gatedCycles.toNat = mainCycles (actionsIn calls ⟨m, log⟩) ↔
      s.device.board.stall.generation = 0) := by
  obtain ⟨running, steps, stalls, cycles⟩ := accounts_of_performAll steady h
  simp only [start.stall_eq, StallControl.fresh, UInt64.toNat_zero, Nat.zero_add] at stalls cycles
  refine ⟨running, steps, stalls, cycles, ?_⟩
  have hmissed := speechCycles_eq_zero_iff (l := actionsIn calls ⟨m, log⟩)
  rw [← UInt64.toNat_inj, UInt64.toNat_zero]
  omega

/-- Without speech all cycles are counted. -/
theorem reader_counts_all : ∃ s, performAll [.runUntil 10] ⟨reader, .fresh⟩ = .ok [.done] s ∧
    s.device.board.stall.gatedCycles = 8 ∧
      mainCycles (actionsIn [.runUntil 10] ⟨reader, .fresh⟩) = 8 := by
  have hrun : ((after? 10 10 ⟨reader, .fresh⟩).any fun s => s.device.turn? 10 = none ∧
      s.device.board.stall.gatedCycles = 8 ∧ s.device.board.stall.generation = 0) = true := by
    decide +kernel
  obtain ⟨s, hs, hend⟩ := (Option.any_eq_true _ _).1 hrun
  obtain ⟨hidle, hcycles, hstalls⟩ := of_decide_eq_true hend
  have hcalls : performAll [.runUntil 10] ⟨reader, .fresh⟩ =
      .ok [.done] ⟨arrive 10 s.device, s.log⟩ :=
    bind_of_ok (bind_of_ok (runUntil_eq_ok.2 ⟨s, turns_of_after? hs hidle, rfl⟩))
  have steady : ∀ c ∈ [Call.runUntil 10], c.Steady := by simp [Call.Steady]
  obtain ⟨-, -, -, -, hall⟩ := all_cycles_counted_iff (.build _ reader.valid _ _ _) steady hcalls
  exact ⟨_, hcalls, hcycles, (hall.2 hstalls).symm.trans (congrArg UInt64.toNat hcycles)⟩

/-- The first step of a talker takes 4 cycles, and none is counted. -/
theorem talker_counts_nothing : ∃ s,
    performAll [.runUntil 1] ⟨talker, .fresh⟩ = .ok [.done] s ∧
    mainCycles (actionsIn [.runUntil 1] ⟨talker, .fresh⟩) = 4 ∧
      s.device.board.stall.gatedCycles = 0 := by
  -- The coprocessor steps first, then the main unit with its word, and then it is stalled.
  have hrun : ((state? (take .mcu) ⟨talker, .fresh⟩).any fun t =>
      t.device.turn? 1 = some .main ∧ t.device.main.nextCycles = 4 ∧
        (state? (take .main) t).any fun u =>
          u.device.turn? 1 = none ∧ u.device.board.stall.gatedCycles = 0) = true := by
    decide +kernel
  have hmcu : (⟨talker, .fresh⟩ : Observed Machine).device.turn? 1 = some .mcu := by
    decide +kernel
  obtain ⟨t, ht, hrest⟩ := (Option.any_eq_true _ _).1 hrun
  obtain ⟨hmain, hfour, hrest⟩ := of_decide_eq_true hrest
  obtain ⟨u, hu, hend⟩ := (Option.any_eq_true _ _).1 hrest
  obtain ⟨hidle, hzero⟩ := of_decide_eq_true hend
  have hturns : turns 1 ⟨talker, .fresh⟩ = .ok () u := by
    rw [turns_of_some hmcu, bind_of_ok (ok_of_state? ht), turns_of_some hmain,
      bind_of_ok (ok_of_state? hu), turns_of_none hidle]
  have hperform : Call.perform (.runUntil 1) ⟨talker, .fresh⟩ = .ok .done _ :=
    bind_of_ok (runUntil_eq_ok.2 ⟨u, hturns, rfl⟩)
  have hactions : Call.actions (.runUntil 1) ⟨talker, .fresh⟩ =
      [⟨[], talker, .mcu⟩, ⟨[talker], t.device, .main⟩] := by
    change actions 1 [] ⟨talker, .fresh⟩ = _
    rw [actions_of_ok hmcu (ok_of_state? ht), actions_of_ok hmain (ok_of_state? hu),
      actions_of_none hidle]
  refine ⟨_, bind_of_ok hperform, ?_, hzero⟩
  rw [actionsIn, hactions, hperform]
  simp [actionsIn, mainCycles, Action.isMain, hfour]

end Machine

end CardComputer
