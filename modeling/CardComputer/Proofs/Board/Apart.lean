import CardComputer.Proofs.Board.BusHistory
import CardComputer.Proofs.Op.Simulation

/-!
# What happens apart from the expander

Of all that can happen to a board (`Board.Activity`) only three things reach the expander: the
coprocessor writes P2 or PROG, or the board is reset. All else neither sees the expander nor changes
it: done to two boards that differ in their expanders only, it leaves two such boards, with the same
messages and the same faults (`Board.Apart`, `Board.Activity.apart`).

So what the coprocessor does with the expander is all that decides about it. On every board that has
come about (`Board.Reached`) an operation is pending exactly while PROG is low, and nothing is
driven onto P2 while it is high (`Board.Reached.sound`).
-/

namespace CardComputer

open Op

namespace Board

/-! ## Activities -/

/-- Something that happens to a board in a machine. -/
inductive Activity where
  /-- An access of a processor, a key or a display tick. -/
  | operation (o : Operation)
  /-- A half-bit passes the card sensor. -/
  | shift
  | swipe (code : CardCode)
  /-- The time of the next access is set. -/
  | setTime (now : UInt64)
  /-- The speech unit has finished a word. -/
  | complete (generation : UInt64)
  /-- The main unit has run for some cycles. -/
  | advance (cycles : UInt32)
  /-- The word that waits is taken to be timed. -/
  | takePlayback
  | reset

namespace Activity

/-- What an activity does to a board. -/
def perform : Activity → Op Board Unit
  | operation o => o.perform
  | shift => Op.update fun b => { b with scanner := b.scanner.tick }
  | swipe code => onScanner (Scanner.swipe code)
  | setTime now => Op.update (Board.setTime now)
  | complete generation => do
    let _ ← onStall (StallControl.complete generation)
  | advance cycles => do
    let _ ← onStall (StallControl.advance cycles)
  | takePlayback => Op.update fun b => b.takePlayback.2
  | reset => Op.update Board.reset

/-- The coprocessor writes a port in the activity. -/
def Writes (port : Port) : Activity → Prop
  | operation o => o.Writes port
  | _ => False

/-- The activity does not reach the expander. -/
def Aside (a : Activity) : Prop := a ≠ reset ∧ ¬a.Writes .p2 ∧ ¬a.Writes .prog

end Activity

/-- Activities one after the other. -/
def carryOut : List Activity → Op Board Unit
  | [] => return ()
  | a :: rest => do
    a.perform
    carryOut rest

/-- A board that has come about from power-on. -/
inductive Reached : Board → Prop
  | powerOn (model : Model) (window : UInt64) : Reached (powerOn model window)
  | activity {a : Activity} {s s' : Observed Board} (before : Reached s.device)
    (h : a.perform s = .ok () s') : Reached s'.device

/-! ## Boards with another expander -/

/-- The board with another expander. -/
def plug (e : Expander) (b : Board) : Board := { b with expander := e }

@[simp]
theorem expander_plug (e : Expander) (b : Board) : (b.plug e).expander = e := rfl

@[simp]
theorem plug_expander (b : Board) : b.plug b.expander = b := rfl

/-- Two boards that differ in their expanders only, with the same log. -/
def Swapped (e e' : Expander) (s t : Observed Board) : Prop :=
  s = ⟨t.device.plug e, t.log⟩ ∧ t.device.expander = e'

/-- The operation neither sees the expander nor changes it. -/
def Apart {α : Type} (op : Op Board α) : Prop :=
  ∀ e e', Sim Strict (Swapped e e') (Swapped e e') (· = ·) op op

section Rules

variable {σ α β : Type}

theorem apart_pure (a : α) : Apart (pure a) := fun _ _ => sim_pure rfl

theorem apart_bind {op : Op Board α} {next : α → Op Board β} (h : Apart op)
    (hn : ∀ a, Apart (next a)) : Apart (op >>= next) :=
  fun e e' => sim_bind (h e e') fun a _ hab => hab ▸ hn a e e'

/-- What comes next may depend on all of the board but the expander. -/
theorem apart_device_bind {next : Board → Op Board α}
    (h : ∀ b e, next (b.plug e) = next b) (hn : ∀ b, Apart (next b)) :
    Apart (Op.device >>= next) := by
  intro e e'
  refine sim_bind sim_device ?_
  rintro _ _ ⟨s, t, ⟨hs, -⟩, rfl, rfl⟩
  rw [hs, h]
  exact hn _ e e'

theorem apart_update {f : Board → Board} (h : ∀ b e, f (b.plug e) = (f b).plug e) :
    Apart (Op.update f) := by
  intro e e'
  refine sim_update ?_
  rintro s t ⟨rfl, rfl⟩
  -- A board is one with its own expander, which shows that the change keeps it.
  have kept := h t.device t.device.expander
  rw [plug_expander] at kept
  refine ⟨?_, (congrArg Board.expander kept).trans (expander_plug _ _)⟩
  dsimp only
  rw [h]

theorem apart_say {c : Log.Category} {level : Log.Level} {text : Unit → String} :
    Apart (Op.say c level text) := by
  intro e e'
  refine sim_report_same ?_ ?_
  · rintro s t ⟨rfl, -⟩
    rfl
  · rintro s t log ⟨rfl, ht⟩
    exact ⟨rfl, ht⟩

/-- What is done to another part of the board. -/
theorem apart_within {get : Board → σ} {set : σ → Board → Board} {op : Op σ α}
    (hget : ∀ b e, get (b.plug e) = get b) (hset : ∀ x b e, set x (b.plug e) = (set x b).plug e) :
    Apart (within get set op) := by
  intro e e'
  refine sim_within (sim_refl op) ?_ ?_
  · rintro s t ⟨rfl, -⟩
    rw [hget]
  · rintro s t x _ ⟨rfl, rfl⟩ rfl
    have kept := hset x.device t.device t.device.expander
    rw [plug_expander] at kept
    refine ⟨?_, (congrArg Board.expander kept).trans (expander_plug _ _)⟩
    dsimp only
    rw [hset]

theorem apart_ite {c : Prop} [Decidable c] {op op' : Op Board α} (h : Apart op) (h' : Apart op') :
    Apart (if c then op else op') :=
  fun e e' => sim_ite (fun _ => h e e') fun _ => h' e e'

/-- An operation that is apart keeps the expander. -/
theorem Apart.keeps {op : Op Board α} (h : Apart op) : Keeps expander op := by
  intro s a s' hs
  have same := h s.device.expander s.device.expander s s ⟨rfl, rfl⟩
  rw [hs] at same
  cases same with
  | ok answers states => exact states.2

end Rules

/-! ## The ports of the coprocessor -/

/-- What follows a write to a port of the expander is apart from the two pins. -/
theorem apart_nibbleWritten (port : NibblePort) : Apart (nibbleWritten port) := by
  refine apart_device_bind (fun _ _ => rfl) fun b => ?_
  refine apart_bind (apart_within (fun _ _ => rfl) fun _ _ _ => rfl) fun _ => ?_
  exact apart_ite (apart_update fun _ _ => rfl) (apart_pure _)

theorem apart_portOut {port : Port} (hp2 : port ≠ .p2) (hprog : port ≠ .prog) (value : UInt8) :
    Apart (portOut port value) := by
  unfold portOut
  cases port with
  | p1 =>
    exact apart_bind (apart_within (fun _ _ => rfl) fun _ _ _ => rfl) fun _ =>
      apart_within (fun _ _ => rfl) fun _ _ _ => rfl
  | p2 => exact absurd rfl hp2
  | expander nibble =>
    exact apart_bind (apart_update fun _ _ => rfl) fun _ => apart_nibbleWritten nibble
  | prog => exact absurd rfl hprog
  | t0 => exact apart_say
  | t1 => exact apart_say
  | _ => exact apart_update fun _ _ => rfl

/-- Reading a port does to the board what it leaves behind, and writes no message. -/
theorem perform_input {address : UInt8} {port : Port} (h : Port.ofAddress? address = some port) :
    (Operation.mcu (.input address)).perform = Op.update (·.afterPortIn port) := by
  funext s
  simp only [Operation.perform, Access.perform, mcuBus, h]
  cases port <;> rfl

/-! ## The activities -/

/-- An access of the coprocessor that writes neither pin of the expander. -/
theorem apart_perform_mcu {a : Access} (hp2 : ¬(Operation.mcu a).Writes .p2)
    (hprog : ¬(Operation.mcu a).Writes .prog) : Apart (Operation.mcu a).perform := by
  cases a with
  | output address value =>
    have write : Apart (mcuBus.output address value) := by
      dsimp only [mcuBus]
      cases hp : Port.ofAddress? address with
      | none => exact apart_say
      | some port =>
        have written : (Operation.mcu (.output address value)).written? = some (port, value) := by
          simp [Operation.written?, hp]
        refine apart_portOut ?_ ?_ value
        · rintro rfl
          exact hp2 ⟨value, written⟩
        · rintro rfl
          exact hprog ⟨value, written⟩
    exact apart_bind (apart_bind write fun _ => apart_pure none) fun _ => apart_pure _
  | input address =>
    -- What is read does not matter: P2 may show what the expander drives.
    cases hp : Port.ofAddress? address with
    | none =>
      -- Only a message is left by a read that reaches no port.
      have read : Apart (mcuBus.input address) := by
        simp only [mcuBus, hp]
        exact apart_bind apart_say fun _ => apart_pure _
      exact apart_bind (apart_bind read fun _ => apart_pure _) fun _ => apart_pure _
    | some port =>
      rw [perform_input hp]
      refine apart_update fun b e => ?_
      cases port <;> rfl
  | _ => exact apart_pure _

/-- An access of the main unit. -/
theorem apart_perform_main (a : Access) : Apart (Operation.main a).perform := by
  refine apart_bind ?_ fun _ => apart_pure _
  cases a with
  | output address value =>
    have write : Apart (onMailbox (Mailbox.hostWrite (address &&& 1 != 0) value)) :=
      apart_within (fun _ _ => rfl) fun _ _ _ => rfl
    exact apart_bind write fun _ => apart_pure _
  | input address =>
    have read : Apart (onMailbox (Mailbox.hostRead (address &&& 1 != 0))) :=
      apart_within (fun _ _ => rfl) fun _ _ _ => rfl
    exact apart_bind read fun _ => apart_pure _
  | store address value =>
    have speak (word : UInt8) : Apart (speak word) := by
      refine apart_bind (apart_within (fun _ _ => rfl) fun _ _ _ => rfl) fun begun => ?_
      exact apart_ite (apart_bind apart_say fun _ => apart_update fun _ _ => rfl) (apart_pure _)
    have store : Apart (mainBus.store address value) :=
      apart_device_bind (fun _ _ => rfl) fun b => apart_ite (speak _) apart_say
    exact apart_bind store fun _ => apart_pure _
  | load address =>
    have load : Apart (mainBus.load address) := by
      refine apart_device_bind (fun _ _ => rfl) fun b => ?_
      exact apart_ite (apart_pure _) (apart_bind apart_say fun _ => apart_pure _)
    exact apart_bind load fun _ => apart_pure _
  | idle => exact apart_pure _

/-- What is done to the stall control. -/
theorem apart_onStall {α : Type} (op : Op StallControl α) : Apart (onStall op) :=
  apart_within (fun _ _ => rfl) fun _ _ _ => rfl

/-- All activities but those that reach the expander. -/
theorem Activity.apart {a : Activity} (h : a.Aside) : Apart a.perform := by
  obtain ⟨hreset, hp2, hprog⟩ := h
  cases a with
  | operation o =>
    cases o with
    | mcu access => exact apart_perform_mcu hp2 hprog
    | main access => exact apart_perform_main access
    | key k pressed =>
      show Apart (Op.update (Board.setKey k pressed))
      exact apart_update fun _ _ => rfl
    | tick =>
      show Apart (onDisplay Display.tick)
      exact apart_within (fun _ _ => rfl) fun _ _ _ => rfl
  | shift =>
    show Apart (Op.update fun b => { b with scanner := b.scanner.tick })
    exact apart_update fun _ _ => rfl
  | swipe code =>
    show Apart (onScanner (Scanner.swipe code))
    exact apart_within (fun _ _ => rfl) fun _ _ _ => rfl
  | setTime now =>
    show Apart (Op.update (Board.setTime now))
    exact apart_update fun _ _ => rfl
  | complete generation => exact apart_bind (apart_onStall _) fun _ => apart_pure _
  | advance cycles => exact apart_bind (apart_onStall _) fun _ => apart_pure _
  | takePlayback =>
    show Apart (Op.update fun b => b.takePlayback.2)
    exact apart_update fun _ _ => rfl
  | reset => exact absurd rfl hreset

/-- So are several of them. -/
theorem apart_carryOut {activities : List Activity} (h : ∀ a ∈ activities, a.Aside) :
    Apart (carryOut activities) := by
  induction activities with
  | nil => exact apart_pure _
  | cons a rest ih =>
    exact apart_bind (Activity.apart (h a List.mem_cons_self)) fun _ =>
      ih fun x hx => h x (List.mem_cons_of_mem a hx)

end Board

/-! ## Boards that have come about -/

/-- An operation is pending exactly while PROG is low, and nothing is driven onto P2 while it is
high. -/
structure Expander.Sound (e : Expander) : Prop where
  pending : e.pending.isSome = !e.prog
  quiet : e.prog = true → e.readData = none

theorem Expander.Sound.pending_eq_none {e : Expander} (h : e.Sound) (high : e.prog = true) :
    e.pending = none := by
  have pending := h.pending
  rw [high] at pending
  exact Option.isNone_iff_eq_none.1 (by simpa using pending)

theorem Expander.sound_idle : Expander.idle.Sound := ⟨rfl, fun _ => rfl⟩

theorem Expander.sound_fall (e : Expander) (d : Display) : (e.fall d).Sound := ⟨rfl, nofun⟩

theorem Expander.sound_rise (e : Expander) : e.rise.Sound := ⟨rfl, fun _ => rfl⟩

namespace Board

/-- What follows a write to a port of the expander leaves the pins alone. -/
theorem expander_nibbleShown (port : NibblePort) (b : Board) :
    (b.nibbleShown port).expander = b.expander := by
  unfold nibbleShown
  dsimp only
  split <;> rfl

/-- Driving PROG leaves a sound expander. -/
theorem sound_afterPortOut_prog {b : Board} (h : b.expander.Sound) (value : UInt8) :
    (b.afterPortOut value .prog).expander.Sound := by
  obtain idle | falls | rises | ⟨port, nibble, shown⟩ := afterPortOut_prog_cases b value
  · rwa [idle]
  · rw [falls]
    exact Expander.sound_fall _ _
  · rw [rises]
    exact Expander.sound_rise _
  · rw [shown, expander_nibbleShown]
    exact Expander.sound_rise _

/-- The coprocessor writes a port. -/
theorem perform_of_written {o : Operation} {port : Port} {value : UInt8}
    (h : o.written? = some (port, value)) : o.perform = portOut port value := by
  cases o with
  | mcu a =>
    cases a with
    | output address byte =>
      obtain ⟨p, hp, heq⟩ := Option.map_eq_some_iff.1 h
      cases heq
      simp [Operation.perform, Access.perform, mcuBus, hp]
    | _ => cases h
  | _ => cases h

/-- An activity that writes a port does nothing else. -/
theorem Activity.perform_of_writes {a : Activity} {port : Port} (h : a.Writes port) :
    ∃ value, a.perform = portOut port value := by
  cases a with
  | operation o =>
    obtain ⟨value, written⟩ := h
    exact ⟨value, perform_of_written written⟩
  | _ => exact h.elim

/-- An activity leaves a sound expander. -/
theorem Activity.sound {a : Activity} {s s' : Observed Board} (hs : s.device.expander.Sound)
    (h : a.perform s = .ok () s') : s'.device.expander.Sound := by
  by_cases hreset : a = .reset
  · rw [hreset] at h
    obtain rfl := update_eq_ok.1 h
    exact Expander.sound_idle
  by_cases hp2 : a.Writes .p2
  · obtain ⟨value, written⟩ := perform_of_writes hp2
    rw [written] at h
    rw [((does_portOut _ _).of_ok h).2]
    exact ⟨hs.pending, hs.quiet⟩
  by_cases hprog : a.Writes .prog
  · obtain ⟨value, written⟩ := perform_of_writes hprog
    rw [written] at h
    rw [((does_portOut _ _).of_ok h).2]
    exact sound_afterPortOut_prog hs value
  -- All else is apart from the expander.
  rw [(Activity.apart ⟨hreset, hp2, hprog⟩).keeps s () s' h]
  exact hs

/-- Every board that has come about has a sound expander. -/
theorem Reached.sound {b : Board} (h : Reached b) : b.expander.Sound := by
  induction h with
  | powerOn model window => exact Expander.sound_idle
  | activity before h ih => exact Activity.sound ih h

end Board

end CardComputer
