import CardComputer.Proofs.Machine.Journal
import CardComputer.Proofs.Machine.StallSafety

/-!
# The timelines of the units

When the processors step, as the journal of a machine tells (`Machine.OnTime`), which calls in a row
continue as long as none goes back in time (`Machine.unit_timelines`). The coprocessor steps
whenever its earlier steps are over, whatever the main unit does. The main unit steps whenever its
last step is over, unless that step began a stall; then it waits for the completion that ends the
stall.

The time of the main unit is set in several places: by its own steps, by completions, and by the
arrival of every run at its target. What carries the proof is what is known of it at any moment
since its last step (`Machine.Since`): an arrival may move the time of a stalled main unit on, but
never past the present, and the completion that ends the stall is not before the present.
-/

namespace CardComputer.Machine

open Op

/-! ## The coprocessor -/

/-- The time of the coprocessor goes on by the cycles of its own steps only. -/
theorem Effect.mcuTime_eq {m m' : Machine} {turn : Turn} (he : Effect m turn m') :
    m'.mcuTime.toNat = m.mcuTime.toNat +
      m.config.mcuDivider.toNat * if turn = .mcu then m.mcu.nextCycles.toNat else 0 := by
  cases he with
  | mcu step later => rw [later, masterCycles_toNat, step.cycles_eq, if_pos rfl, Nat.mul_comm]
  | _ => simp

/-- The time of the coprocessor is that of all its steps since power-on. -/
theorem Journal.mcuTime_eq {notes : List Note} {m : Machine} (h : Journal notes m) :
    m.mcuTime.toNat = m.config.mcuDivider.toNat * cyclesOf .mcu notes := by
  induction h with
  | build | reset => exact (Nat.mul_zero _).symm
  | request before h ih =>
    obtain ⟨-, hmcu, hconfig⟩ := (fulfilled_of_perform h).now_eq
    rw [hmcu, hconfig]
    exact ih
  | @turn notes m m' target turn log log' before ht h ih =>
    have effect := effect_of_take (s := ⟨m, log⟩) ht h
    rw [effect.mcuTime_eq, effect.config_eq, ih]
    -- Only a step of the coprocessor adds to either side.
    by_cases hturn : turn = .mcu
    · subst hturn
      simp only [cyclesOf, Taken.cycles, if_true]
      rw [Nat.mul_add, Nat.add_comm]
    · simp only [cyclesOf, if_neg hturn, Nat.mul_zero, Nat.add_zero, Nat.zero_add]
  | arrive before forward ht ih => exact ih

/-- A step of the coprocessor is taken when its earlier steps are over. -/
theorem Recorded.mcu_time {earlier : List Note} {b : Taken} (h : Recorded earlier b)
    (hb : b.turn = .mcu) :
    b.time.toNat = b.before.config.mcuDivider.toNat * cyclesOf .mcu earlier := by
  have htime : b.time = b.before.turnTime b.turn := h.effect.timing.now
  rw [htime, hb]
  exact h.journal.mcuTime_eq

/-! ## Steps of the main unit -/

/-- When a step of the main unit is over. -/
def Taken.finish (t : Taken) : Nat :=
  t.time.toNat + t.cycles * t.before.config.mainDivider.toNat

/-- When the word that a step of the main unit gives to the speech unit will have been spoken, if
there is a timer to say so. -/
def Taken.due? (t : Taken) : Option Nat :=
  match t.before.main.word? t.before.board, t.before.timer with
  | some word, some timer =>
    let us := timer.duration t.before.timed word
    some (min (t.finish + (t.before.config.usToCycles us).toNat) never.toNat)
  | _, _ => none

/-- The turns that ended a stall, the latest first. -/
def released : List Note → List Taken
  | [] => []
  | .turned t :: notes =>
    if t.before.isStalled && !t.after.isStalled then t :: released notes else released notes
  | .asked _ :: notes => released notes

/-- A turn was the completion of the stall that a step of the main unit had begun. -/
structure Completes (a x : Taken) : Prop where
  event : x.turn = .event
  completion : ∃ e rest, x.before.timeline.pop? = some (e, rest) ∧
    e.event = .speechDone a.after.board.stall.generation ∧ e.time = x.time

/-- The time of the main unit after a step. -/
theorem Effect.mainTime_eq {m m' : Machine} (he : Effect m .main m') :
    m'.mainTime.toNat = (Taken.mk m .main m').finish := by
  cases he with
  | main step counted later times =>
    rw [Taken.finish, Taken.cycles, ← step.cycles_eq, ← masterCycles_toNat]
    exact later

/-- An entry of a timeline is the completion of a machine's current stall. -/
def Completing (m : Machine) (e : Entry) : Prop :=
  e ∈ m.timeline.entries ∧ e.event = .speechDone m.board.stall.generation

/-- A step that begins a stall gives the speech unit a word. If there is a timer, the stall has a
completion for the time when the word will have been spoken, and none for another time. -/
theorem Effect.spoken {m m' : Machine} (he : Effect m .main m') (running : m.isStalled = false)
    (stalled : m'.isStalled = true) (completions : ∀ e ∈ m.timeline.entries, ∀ generation,
      e.event = .speechDone generation → generation ≤ m.board.stall.generation) :
    (∃ word, m.main.word? m.board = some word) ∧
      ∀ due, (Taken.mk m .main m').due? = some due →
        (∃ e, m'.Completing e) ∧ ∀ e, m'.Completing e → e.time.toNat = due := by
  have hfinish := he.mainTime_eq
  cases he with
  | main step counted later times =>
    -- The step speaks no word, or it speaks one in vain, or the word begins a stall.
    rcases step.main_cases with ⟨-, mailbox, rfl⟩ | ⟨word, hword, ⟨-, rfl⟩ |
      ⟨-, generation, hnext, rfl⟩⟩
    · exact absurd (running.symm.trans stalled) Bool.false_ne_true
    · exact absurd (running.symm.trans stalled) Bool.false_ne_true
    · rw [word?_setTime] at hword
      refine ⟨⟨word, hword⟩, fun due hdue => ?_⟩
      unfold Taken.due? at hdue
      unfold Times at times
      simp only [hword] at hdue
      cases htimer : m.timer with
      | none =>
        rw [htimer] at hdue
        cases hdue
      | some timer =>
        simp only [htimer, Option.some.injEq] at hdue times
        have scheduled {e : Entry} := Timeline.mem_schedule (e := e) times.1
        refine ⟨⟨_, scheduled.2 (Or.inl rfl), rfl⟩, fun e hcompleting => ?_⟩
        rcases scheduled.1 hcompleting.1 with rfl | hold
        · rw [← hdue, toNat_addTime]
          exact congrArg (fun n => min (n + _) never.toNat) hfinish
        · -- What was pending before the step belongs to an earlier stall.
          have hle := completions e hold _ hcompleting.2
          have hnext : generation.toNat = m.board.stall.generation.toNat + 1 := hnext
          rw [UInt64.le_iff_toNat_le] at hle
          simp only [StallControl.begun] at hle
          omega

/-- What a turn of an event or the coprocessor does to the main unit: nothing, or it ends its
stall. -/
inductive MainChange (m : Machine) (turn : Turn) (m' : Machine) : Prop
  | kept (stall : m'.isStalled = m.isStalled)
    (generation : m'.board.stall.generation = m.board.stall.generation)
    (mainTime : m'.mainTime = m.mainTime)
  | resumed {e : Entry} {rest : Timeline} (event : turn = .event) (stalled : m.isStalled = true)
    (running : m'.isStalled = false) (next : m.timeline.pop? = some (e, rest))
    (kind : e.event = .speechDone m.board.stall.generation) (now : m'.now = e.time)
    (mainTime : m'.mainTime = max m.mainTime e.time)

theorem Effect.mainChange {m m' : Machine} {turn : Turn} (he : Effect m turn m')
    (hturn : turn ≠ .main) : MainChange m turn m' := by
  cases he with
  | release next kind stalled counted => exact .resumed rfl stalled rfl next kind rfl rfl
  | mcu step later =>
    have hstall := congrArg Board.Remote.stall step.remote_eq
    exact .kept (congrArg StallControl.isStalled hstall)
      (congrArg StallControl.generation hstall) rfl
  | main step counted later times => exact absurd rfl hturn
  | _ => exact .kept rfl rfl rfl

/-- An entry that is not like the next one stays pending when that one happens. -/
theorem mem_rest_of_ne {t rest : Timeline} {e x : Entry} (next : t.pop? = some (e, rest))
    (hx : x ∈ t.entries) (hne : e.event ≠ x.event) : x ∈ rest.entries := by
  rw [(Timeline.pop?_eq_some.1 next).1] at hx
  rcases List.mem_cons.1 hx with rfl | hx
  · exact absurd rfl hne
  · exact hx

/-- While a stall goes on, its completions stay pending at the turns of events and the coprocessor,
and no other ones come. -/
theorem Effect.completing_iff {m m' : Machine} {turn : Turn} {e : Entry} (he : Effect m turn m')
    (hturn : turn ≠ .main) (stalled : m.isStalled = true) (stalled' : m'.isStalled = true)
    (generation : m'.board.stall.generation = m.board.stall.generation) :
    m'.Completing e ↔ m.Completing e := by
  unfold Completing
  rw [generation]
  refine and_congr_left fun hkind => ⟨fun hmem => ?_, fun hmem => ?_⟩
  · -- Only the main unit has completions scheduled.
    by_cases hold : e ∈ m.timeline.entries
    · exact hold
    · exact absurd hkind ((he.of_ne_main hturn).2.2 e hmem hold _)
  · -- An event that leaves the stall is not its completion, so it is another entry that is taken.
    cases he with
    | shift next kind period scheduled =>
      refine (Timeline.mem_schedule scheduled).2 (Or.inr (mem_rest_of_ne next hmem ?_))
      simp [kind, hkind]
    | tick next kind counted period scheduled =>
      refine (Timeline.mem_schedule scheduled).2 (Or.inr (mem_rest_of_ne next hmem ?_))
      simp [kind, hkind]
    | swipe next kind => exact mem_rest_of_ne next hmem (by simp [kind, hkind])
    | key next kind => exact mem_rest_of_ne next hmem (by simp [kind, hkind])
    | release next kind stalled counted => cases stalled'
    | spurious next kind other =>
      refine mem_rest_of_ne next hmem ?_
      simpa [kind, hkind] using other stalled
    | mcu step later => exact hmem
    | main step counted later times => exact absurd rfl hturn

/-- A request leaves completions pending, and one that is no report brings no others. -/
theorem Fulfilled.completing {m m' : Machine} {r : Request} (h : Fulfilled m r m') (e : Entry) :
    (m.Completing e → m'.Completing e) ∧
      (r ≠ .speechDone → m'.Completing e → m.Completing e) := by
  cases h with
  | install timer => exact ⟨id, fun _ => id⟩
  | pressReset => exact ⟨id, fun _ => id⟩
  | posted posts scheduled =>
    refine ⟨fun hc => ⟨(Timeline.mem_schedule scheduled).2 (Or.inr hc.1), hc.2⟩, fun hr hc => ?_⟩
    obtain ⟨hmem, hkind⟩ := hc
    rcases (Timeline.mem_schedule scheduled).1 hmem with rfl | hold
    · -- Of the requests only a report posts a completion.
      cases r with
      | speechDone => exact absurd rfl hr
      | swipe code =>
        cases posts
        cases hkind
      | setKey key pressed =>
        cases posts
        cases hkind
      | install timer => cases posts
      | pressReset => cases posts
    · exact ⟨hold, hkind⟩

/-! ## Since the last step of the main unit -/

/-- What is known of the main unit since its last step `a`. -/
inductive Since (a : Taken) (between : List Note) (m : Machine) : Prop
  /-- The step did not begin a stall. -/
  | running (left : a.after.isStalled = false) (now : m.isStalled = false)
    (next : m.mainTime.toNat = a.finish)
  /-- The stall goes on. The time of the main unit may have been moved on, up to the present. -/
  | stalled (left : a.after.isStalled = true) (none : released between = [])
    (now : m.isStalled = true)
    (generation : m.board.stall.generation = a.after.board.stall.generation)
    (lower : a.finish ≤ m.mainTime.toNat) (upper : m.mainTime.toNat ≤ max a.finish m.now.toNat)
    (pending : ∀ due, a.due? = some due → ∃ e, m.Completing e)
    (timed : ∀ due, a.due? = some due → .asked .speechDone ∉ between →
      ∀ e, m.Completing e → e.time.toNat = due)
  /-- The stall was ended, once. -/
  | resumed {x : Taken} (left : a.after.isStalled = true) (once : released between = [x])
    (completes : Completes a x) (now : m.isStalled = false)
    (next : m.mainTime.toNat = max a.finish x.time.toNat)
    (timed : ∀ due, a.due? = some due → .asked .speechDone ∉ between → x.time.toNat = due)

section Since

variable {a : Taken} {between : List Note} {m m' : Machine}

/-- Right after the step. -/
theorem since_start {m m' : Machine} (he : Effect m .main m') (running : m.isStalled = false)
    (completions : ∀ e ∈ m.timeline.entries, ∀ generation, e.event = .speechDone generation →
      generation ≤ m.board.stall.generation) : Since ⟨m, .main, m'⟩ [] m' := by
  have hfinish := he.mainTime_eq
  cases hs : m'.isStalled with
  | false => exact .running hs hs hfinish
  | true =>
    have spoken := (he.spoken running hs completions).2
    refine .stalled hs rfl hs rfl (Nat.le_of_eq hfinish.symm) ?_
      (fun due hdue => (spoken due hdue).1) fun due hdue _ => (spoken due hdue).2
    exact Nat.le_trans (Nat.le_of_eq hfinish) (Nat.le_max_left _ _)

/-- A request, which can be the report of the host. -/
theorem Since.fulfilled {r : Request} (h : Since a between m) (hr : Fulfilled m r m') :
    Since a (.asked r :: between) m' := by
  obtain ⟨htime, hstall⟩ := hr.main_eq
  have hnow := hr.now_eq.1
  have hstalled : m'.isStalled = m.isStalled := isStalled_of_stall hstall
  cases h with
  | running left now next => exact .running left (hstalled.trans now) (htime ▸ next)
  | stalled left none now generation lower upper pending timed =>
    refine .stalled left none (hstalled.trans now) (hstall ▸ generation) (htime ▸ lower) ?_ ?_ ?_
    · rw [htime, hnow]
      exact upper
    · intro due hdue
      obtain ⟨e, he⟩ := pending due hdue
      exact ⟨e, (hr.completing e).1 he⟩
    · intro due hdue hno e he
      rw [List.mem_cons, not_or] at hno
      have hr' : r ≠ .speechDone := fun h => hno.1 (by rw [h])
      exact timed due hdue hno.2 e ((hr.completing e).2 hr' he)
  | resumed left once completes now next timed =>
    refine .resumed left once completes (hstalled.trans now) (htime ▸ next) ?_
    intro due hdue hno
    exact timed due hdue fun hmem => hno (List.mem_cons_of_mem _ hmem)

/-- A turn that leaves the stall as it is stands for no release. -/
theorem released_of_kept {turn : Turn} (h : m'.isStalled = m.isStalled) :
    released (.turned ⟨m, turn, m'⟩ :: between) = released between := by
  rw [released, if_neg]
  simp [h]

/-- A turn of an event or the coprocessor. -/
theorem Since.turn {target : UInt64} {turn : Turn} (h : Since a between m)
    (up : m.CaughtUp m.now) (ht : m.turn? target = some turn) (he : Effect m turn m')
    (hturn : turn ≠ .main) : Since a (.turned ⟨m, turn, m'⟩ :: between) m' := by
  have hnow : m.now.toNat ≤ m'.now.toNat := by
    rw [← UInt64.le_iff_toNat_le, he.timing.now]
    exact up.le_turnTime ht
  have hno {p : Prop} (h : .asked .speechDone ∉ between → p) :
      .asked .speechDone ∉ .turned ⟨m, turn, m'⟩ :: between → p :=
    fun hmem => h fun hold => hmem (List.mem_cons_of_mem _ hold)
  cases he.mainChange hturn with
  | kept stall generation mainTime =>
    have hreleased : released (.turned ⟨m, turn, m'⟩ :: between) = released between :=
      released_of_kept stall
    cases h with
    | running left now next => exact .running left (stall.trans now) (mainTime ▸ next)
    | stalled left none now generation' lower upper pending timed =>
      have completing (e : Entry) : m'.Completing e ↔ m.Completing e :=
        he.completing_iff hturn now (stall.trans now) generation
      refine .stalled left (hreleased.trans none) (stall.trans now)
        (generation.trans generation') (mainTime ▸ lower) ?_ ?_
        fun due hdue => hno fun hbefore => ?_
      · rw [mainTime]
        omega
      · intro due hdue
        obtain ⟨e, he⟩ := pending due hdue
        exact ⟨e, (completing e).2 he⟩
      · intro e hcompleting
        exact timed due hdue hbefore e ((completing e).1 hcompleting)
    | resumed left once completes now next timed =>
      exact .resumed left (hreleased.trans once) completes (stall.trans now) (mainTime ▸ next)
        fun due hdue => hno (timed due hdue)
  | @resumed e rest event stalled running next kind now mainTime =>
    cases h with
    | running left now' next' => exact absurd (now'.symm.trans stalled) Bool.false_ne_true
    | stalled left none now' generation lower upper pending timed =>
      have hmem := Timeline.mem_of_pop next
      have htime : (Taken.mk m turn m').time = e.time := now
      refine .resumed left ?_ ⟨event, e, rest, next, generation ▸ kind, htime.symm⟩ running ?_
        fun due hdue => hno fun hbefore => ?_
      · rw [released, if_pos (by simp [stalled, running]), none]
      · -- The completion is not before the present, so an arrival has not moved the time past it.
        have hlate := UInt64.le_iff_toNat_le.1 (up.events e hmem)
        rw [mainTime, toNat_max, htime]
        omega
      · rw [htime]
        exact timed due hdue hbefore e ⟨hmem, kind⟩
    | resumed left once completes now' next' timed =>
      exact absurd (now'.symm.trans stalled) Bool.false_ne_true

/-- The arrival at a time that is not before the present. -/
theorem Since.arrive {target : UInt64} (h : Since a between m) (forward : m.now ≤ target) :
    Since a between (arrive target m) := by
  have htime : (Machine.arrive target m).mainTime =
      if m.isStalled then max m.mainTime target else m.mainTime := rfl
  rw [UInt64.le_iff_toNat_le] at forward
  cases h with
  | running left now next =>
    refine .running left now ?_
    rw [htime, now, if_neg Bool.false_ne_true]
    exact next
  | stalled left none now generation lower upper pending timed =>
    rw [now, if_pos rfl] at htime
    refine .stalled left none now generation ?_ ?_ pending timed
    · rw [htime, toNat_max]
      omega
    · rw [htime, toNat_max]
      show _ ≤ max a.finish target.toNat
      omega
  | resumed left once completes now next timed =>
    refine .resumed left once completes now ?_ timed
    rw [htime, now, if_neg Bool.false_ne_true]
    exact next

/-- What is known of the main unit holds at every moment until its next step. -/
theorem Journal.since {earlier : List Note} (h : Journal (between ++ .turned a :: earlier) m)
    (ha : a.turn = .main) (quiet : ∀ t, .turned t ∈ between → t.turn ≠ .main) :
    Since a between m := by
  generalize hnotes : between ++ .turned a :: earlier = notes at h
  -- The latest note is that of the step itself, or what came before it is known by induction.
  induction h generalizing between with
  | build | reset => simp at hnotes
  | request before h ih =>
    cases between with
    | nil => cases hnotes
    | cons note between =>
      obtain ⟨rfl, htail⟩ := List.cons.inj hnotes
      have hold := ih (fun t ht => quiet t (List.mem_cons_of_mem _ ht)) htail
      exact hold.fulfilled (fulfilled_of_perform h)
  | @turn notes m m' target turn log log' before ht h ih =>
    have effect := effect_of_take (s := ⟨m, log⟩) ht h
    cases between with
    | nil =>
      obtain ⟨hstep, -⟩ := List.cons.inj hnotes
      cases hstep
      obtain rfl : turn = .main := ha
      exact since_start effect (turn?_eq_main ht).1 before.completions_le
    | cons note between =>
      obtain ⟨rfl, htail⟩ := List.cons.inj hnotes
      have hold := ih (fun t ht => quiet t (List.mem_cons_of_mem _ ht)) htail
      exact hold.turn before.caughtUp ht effect (quiet _ List.mem_cons_self)
  | arrive before forward ht ih => exact (ih quiet hnotes).arrive forward

end Since

/-! ## From one step of the main unit to the next -/

/-- How a step `b` of the main unit follows the one before it, `a`. -/
structure Follows (a : Taken) (between : List Note) (b : Taken) : Prop where
  /-- It is taken when that step is over, unless that step began a stall. -/
  running : a.after.isStalled = false → b.time.toNat = a.finish
  /-- Else it is taken when the stall was ended, but not before that step is over. -/
  stalled : a.after.isStalled = true → ∃ x, released between = [x] ∧ Completes a x ∧
    b.time.toNat = max a.finish x.time.toNat
  /-- With a timer and without a report of the host, the stall was ended when the word had been
  spoken. -/
  timed : a.after.isStalled = true → a.before.timer.isSome → .asked .speechDone ∉ between →
    ∃ due, a.due? = some due ∧ b.time.toNat = due ∧ ∀ x ∈ released between, x.time.toNat = due

/-- What is to come if `a` is the last step of the main unit so far: the next one is not overdue. -/
structure Awaits (a : Taken) (between : List Note) (m : Machine) : Prop where
  running : a.after.isStalled = false → m.now.toNat ≤ a.finish
  /-- The stall goes on, with a timer no longer than until the word has been spoken, or it was
  ended. -/
  stalled : a.after.isStalled = true →
    (m.isStalled = true ∧ released between = [] ∧
      (.asked .speechDone ∉ between → ∀ due, a.due? = some due → m.now.toNat ≤ due)) ∨
    ∃ x, released between = [x] ∧ Completes a x ∧ m.now.toNat ≤ max a.finish x.time.toNat

/-- A word has not been spoken before the step that gave it to the speech unit is over. -/
theorem finish_le_due {a : Taken} {due : Nat} (ha : Effect a.before .main a.after)
    (hturn : a.turn = .main) (h : a.due? = some due) : a.finish ≤ due := by
  obtain ⟨before, turn, after⟩ := a
  obtain rfl : turn = .main := hturn
  have hfinish := ha.mainTime_eq
  -- The step is over at a time that the clock can show, so the sum is not cut off below it.
  have hlt := after.mainTime.toNat_lt
  have hnever : never.toNat = 2 ^ 64 - 1 := rfl
  dsimp only at hfinish
  unfold Taken.due? at h
  split at h
  · cases h
    omega
  · cases h

section Steps

variable {a b : Taken} {earlier between : List Note} {m : Machine}

/-- A step of the main unit that began a stall with a timer says when its word will have been
spoken. -/
theorem Recorded.exists_due (h : Recorded earlier a) (ha : a.turn = .main)
    (left : a.after.isStalled = true) (timer : a.before.timer.isSome) :
    ∃ due, a.due? = some due := by
  obtain ⟨target, ht⟩ := h.due
  have effect := h.effect
  rw [ha] at ht effect
  have running := (turn?_eq_main ht).1
  obtain ⟨⟨word, hword⟩, -⟩ := effect.spoken running left h.journal.completions_le
  obtain ⟨timer, htimer⟩ := Option.isSome_iff_exists.1 timer
  apply Option.isSome_iff_exists.1
  simp [Taken.due?, hword, htimer]

/-- A step of the main unit follows the one before it. -/
theorem Recorded.follows (h : Recorded (between ++ .turned a :: earlier) b) (ha : a.turn = .main)
    (hb : b.turn = .main) (quiet : ∀ t, .turned t ∈ between → t.turn ≠ .main) :
    Follows a between b := by
  obtain ⟨target, ht⟩ := h.due
  have htime : b.time = b.before.turnTime b.turn := h.effect.timing.now
  rw [hb] at ht htime
  have htime : b.time = b.before.mainTime := htime
  have running := (turn?_eq_main ht).1
  cases h.journal.since ha quiet with
  | running left now next =>
    refine ⟨fun _ => by rw [htime, next], fun left' => ?_, fun left' => ?_⟩
    · exact absurd (left.symm.trans left') Bool.false_ne_true
    · exact absurd (left.symm.trans left') Bool.false_ne_true
  | stalled left none now =>
    -- A stalled main unit has no turn.
    exact absurd (running.symm.trans now) Bool.false_ne_true
  | @resumed x left once completes now next timed =>
    refine ⟨fun left' => ?_, fun _ => ⟨x, once, completes, by rw [htime, next]⟩,
      fun _ timer hno => ?_⟩
    · exact absurd (left'.symm.trans left) Bool.false_ne_true
    · have recorded : Recorded earlier a := h.journal.recorded
      obtain ⟨due, hdue⟩ := recorded.exists_due ha left timer
      have hx := timed due hdue hno
      refine ⟨due, hdue, ?_, ?_⟩
      · have hle := finish_le_due (ha ▸ recorded.effect) ha hdue
        rw [htime, next, hx]
        exact Nat.max_eq_right hle
      · rw [once]
        intro y hy
        rw [List.mem_singleton.1 hy]
        exact hx

/-- No step of the main unit is taken before the word of an earlier one has been spoken. -/
theorem Recorded.due_le (ha : a.turn = .main) (left : a.after.isStalled = true) {due : Nat}
    (hdue : a.due? = some due) (h : Recorded (between ++ .turned a :: earlier) b)
    (hb : b.turn = .main) (hno : .asked .speechDone ∉ between) : due ≤ b.time.toNat := by
  -- The induction is on the notes between the two steps, to find the step right after `a`.
  generalize hn : between.length = n
  induction n using Nat.strongRecOn generalizing between b with
  | ind n ih =>
    by_cases hmain : ∃ t, .turned t ∈ between ∧ t.turn = .main
    · obtain ⟨t, hmem, ht⟩ := hmain
      obtain ⟨later, between', rfl⟩ := List.append_of_mem hmem
      -- The step `t` in between is not before that time, and `b` is not before `t`.
      have hjournal := h.journal
      rw [List.append_assoc, List.cons_append] at hjournal
      have htle : due ≤ t.time.toNat := by
        refine ih between'.length ?_ hjournal.recorded ht ?_ rfl
        · rw [← hn]
          simp
          omega
        · intro hmem
          exact hno (List.mem_append_right _ (List.mem_cons_of_mem _ hmem))
      have hle := UInt64.le_trans (hjournal.time_le (List.mem_append_right _ List.mem_cons_self))
        h.now_le
      rw [UInt64.le_iff_toNat_le] at hle
      exact Nat.le_trans htle hle
    · have quiet (t : Taken) (ht : .turned t ∈ between) : t.turn ≠ .main :=
        fun hturn => hmain ⟨t, ht, hturn⟩
      have timer : a.before.timer.isSome := by
        unfold Taken.due? at hdue
        split at hdue
        · rename_i htimer
          simp [htimer]
        · cases hdue
      obtain ⟨due', hdue', hb', -⟩ := (h.follows ha hb quiet).timed left timer hno
      obtain rfl := Option.some.inj (hdue.symm.trans hdue')
      exact Nat.le_of_eq hb'.symm

/-- The next step of the main unit is not overdue. -/
theorem Journal.awaits (h : Journal (between ++ .turned a :: earlier) m) (ha : a.turn = .main)
    (quiet : ∀ t, .turned t ∈ between → t.turn ≠ .main) : Awaits a between m := by
  have caughtUp := h.caughtUp
  have main := caughtUp.main
  rw [UInt64.le_iff_toNat_le] at main
  cases h.since ha quiet with
  | running left now next =>
    refine ⟨fun _ => next ▸ main now, fun left' => ?_⟩
    exact absurd (left.symm.trans left') Bool.false_ne_true
  | stalled left none now generation lower upper pending timed =>
    refine ⟨fun left' => ?_, fun _ => Or.inl ⟨now, none, fun hno due hdue => ?_⟩⟩
    · exact absurd (left'.symm.trans left) Bool.false_ne_true
    · -- The completion for that time is still pending, so that time has not passed.
      obtain ⟨e, he⟩ := pending due hdue
      rw [← timed due hdue hno e he]
      exact UInt64.le_iff_toNat_le.1 (caughtUp.events e he.1)
  | @resumed x left once completes now next timed =>
    refine ⟨fun left' => ?_, fun _ => Or.inr ⟨x, once, completes, next ▸ main now⟩⟩
    exact absurd (left'.symm.trans left) Bool.false_ne_true

end Steps

/-! ## The timelines of the units -/

/-- The units of a machine are on time, as its notes tell. -/
structure OnTime (notes : List Note) (m : Machine) : Prop where
  /-- Every step of the coprocessor was taken when the cycles of its earlier steps were over. -/
  mcu : ∀ later b earlier, notes = later ++ .turned b :: earlier → b.turn = .mcu →
    b.time.toNat = b.before.config.mcuDivider.toNat * cyclesOf .mcu earlier
  /-- Every step of the main unit followed the one before it. -/
  main : ∀ later b between a earlier,
    notes = later ++ .turned b :: (between ++ .turned a :: earlier) →
    a.turn = .main → b.turn = .main → (∀ t, .turned t ∈ between → t.turn ≠ .main) →
    Follows a between b
  /-- Without a report of the host, no step of the main unit was taken before the word of an earlier
  one had been spoken. -/
  spoken : ∀ later b between a earlier,
    notes = later ++ .turned b :: (between ++ .turned a :: earlier) →
    a.turn = .main → b.turn = .main → a.after.isStalled = true →
    .asked .speechDone ∉ between → ∀ due, a.due? = some due → due ≤ b.time.toNat
  /-- The next step of the coprocessor is not overdue. -/
  nextMcu : m.now.toNat ≤ m.config.mcuDivider.toNat * cyclesOf .mcu notes
  /-- Neither is the next step of the main unit. -/
  nextMain : ∀ between a earlier, notes = between ++ .turned a :: earlier → a.turn = .main →
    (∀ t, .turned t ∈ between → t.turn ≠ .main) → Awaits a between m

theorem Journal.onTime {notes : List Note} {m : Machine} (h : Journal notes m) :
    OnTime notes m where
  mcu := by
    rintro later b earlier rfl hb
    exact h.recorded.mcu_time hb
  main := by
    rintro later b between a earlier rfl ha hb quiet
    exact h.recorded.follows ha hb quiet
  spoken := by
    rintro later b between a earlier rfl ha hb left hno due hdue
    exact Recorded.due_le ha left hdue h.recorded hb hno
  nextMcu := by
    rw [← h.mcuTime_eq, ← UInt64.le_iff_toNat_le]
    exact h.caughtUp.mcu
  nextMain := by
    rintro between a earlier rfl ha quiet
    exact h.awaits ha quiet

/-- The timelines of the units are exact. In the journal of a machine every step of the coprocessor
was taken when the cycles of its earlier steps were over, and every step of the main unit when the
step before it was over or, if that one began a stall, when the stall was ended, but not before the
step was over. With a timer and without a report of the host, that is when the word had been spoken,
and no step of the main unit was taken before. The steps to come are not overdue. Calls in a row of
which none goes back in time continue the journal, and all this holds after them. -/
theorem unit_timelines {notes : List Note} {m : Machine} (h : Journal notes m) :
    OnTime notes m ∧
    ∀ calls answers log s, AllForward calls ⟨m, log⟩ →
      performAll calls ⟨m, log⟩ = .ok answers s →
      ∃ notes', Continues calls notes notes' ∧ Journal notes' s.device ∧
        OnTime notes' s.device := by
  refine ⟨h.onTime, fun calls answers log s forward hcalls => ?_⟩
  have before : Journal notes (⟨m, log⟩ : Observed Machine).device := h
  obtain ⟨notes', continues, journal⟩ := before.performAll forward hcalls
  exact ⟨notes', continues, journal, journal.onTime⟩

/-- The journal after a number of turns before a time, with the machine, if there are so many and
none fails. -/
def noted? (target : UInt64) : Nat → List Note → Observed Machine →
    Option (List Note × Observed Machine)
  | 0, notes, s => some (notes, s)
  | n + 1, notes, s =>
    match s.device.turn? target with
    | none => none
    | some turn => (state? (take turn) s).bind fun t =>
      noted? target n (.turned ⟨s.device, turn, t.device⟩ :: notes) t

theorem Journal.noted {target : UInt64} {n : Nat} {notes notes' : List Note}
    {s t : Observed Machine} (before : Journal notes s.device)
    (h : noted? target n notes s = some (notes', t)) : Journal notes' t.device := by
  induction n generalizing notes s with
  | zero =>
    cases h
    exact before
  | succ n ih =>
    unfold noted? at h
    split at h
    · cases h
    · rename_i turn ht
      obtain ⟨u, hu, h⟩ := Option.bind_eq_some_iff.1 h
      exact ih (before.turn ht (ok_of_state? hu)) h

/-- A machine whose main unit says a word of a microsecond. -/
def brisk : Machine :=
  build .standard Config.valid_standard talker.main talker.mcu (some (.fixed 1))

/-- Seven notes, the latest first, tell of two steps of the main unit and the word between them. -/
def resumes : List Note → Bool
  | [.turned b, .turned x₄, .turned x₃, .turned x₂, .turned x₁, .turned a, .turned x₀] =>
    (a.turn = .main ∧ a.after.isStalled = true ∧ a.finish = 8 ∧ b.turn = .main ∧
      b.time.toNat = 13) ∧ cyclesOf .mcu [.turned x₄, .turned x₃, .turned x₂, .turned x₁] = 12 ∧
      x₁.turn = .mcu ∧ x₂.turn = .mcu ∧ x₃.turn = .mcu ∧ x₄.turn = .event ∧ x₀.turn = .mcu
  | _ => false

/-- The first step of the main unit is over after eight cycles and its word five cycles later, which
is when the second step is taken. Three steps of the coprocessor lie in between. -/
theorem brisk_resumes : ∃ a between b earlier s, noted? 100 7 [] ⟨brisk, .fresh⟩ =
      some (.turned b :: (between ++ .turned a :: earlier), s) ∧
    a.after.isStalled = true ∧ a.finish = 8 ∧ b.time.toNat = 13 ∧ cyclesOf .mcu between = 12 ∧
    Follows a between b := by
  have found : ((noted? 100 7 [] ⟨brisk, .fresh⟩).any fun r => resumes r.1) = true := by
    decide +kernel
  obtain ⟨⟨notes, s⟩, hnotes, hmatch⟩ := (Option.any_eq_true _ _).1 found
  dsimp only [resumes] at hmatch
  split at hmatch
  · -- What was found are turns of a journal, of which the middle ones are not the main unit's.
    rename_i b x₄ x₃ x₂ x₁ a x₀
    obtain ⟨⟨ha, left, hfinish, hb, htime⟩, hcycles, h₁, h₂, h₃, h₄, -⟩ := of_decide_eq_true hmatch
    have journal : Journal _ s.device := Journal.noted (.build _ _ _ _ _) hnotes
    refine ⟨a, [.turned x₄, .turned x₃, .turned x₂, .turned x₁], b, [.turned x₀], s, hnotes, left,
      hfinish, htime, hcycles, ?_⟩
    refine (unit_timelines journal).1.main [] b _ a _ rfl ha hb fun t ht => ?_
    simp only [List.mem_cons, Note.turned.injEq, List.not_mem_nil, or_false] at ht
    rcases ht with rfl | rfl | rfl | rfl
    · simp [h₄]
    · simp [h₃]
    · simp [h₂]
    · simp [h₁]
  · cases hmatch

end CardComputer.Machine
