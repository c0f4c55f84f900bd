import CardComputer.Proofs.Board.Apart
import CardComputer.Proofs.Op.Invariant
import Mathlib.Data.Nat.Bitwise

/-!
# The tone output

On models without speech one bit of port P7 drives the tone output. The level is kept beside the
register that it is taken from, and is only brought up to date where P7 is written. That is enough:
whatever happens to a board keeps the two in step (`Board.Activity.maintains_tuned`), so the level
can always be read off the register (`Board.tone_follows_register`).
-/

namespace CardComputer

open Op

/-- A display tick leaves the register alone, also if it is one too many to be counted. -/
theorem Display.maintains_register_tick (register : UInt16) :
    Maintains (fun d => d.register = register) Display.tick := by
  intro s hs
  rcases Display.tick_cases s.device s.log with ⟨-, htick⟩ | ⟨now, -, htick⟩
  · rw [after, htick]
    exact hs
  · rw [after, htick]
    exact hs

namespace Board

/-- The bit of a port that drives the tone output. -/
theorem and_toneMask_bne_zero (nibble : UInt8) :
    (nibble &&& toneMask != 0) = nibble.toNat.testBit 1 := by
  -- The mask is the power of two of this bit.
  have hand : (nibble &&& toneMask).toNat = (nibble.toNat.testBit 1).toNat * 2 ^ 1 :=
    (UInt8.toNat_and _ _).trans (Nat.and_two_pow nibble.toNat 1)
  have hzero : nibble &&& toneMask = 0 ↔ nibble.toNat.testBit 1 = false := by
    rw [← UInt8.toNat_inj, hand]
    cases nibble.toNat.testBit 1 <;> decide
  rw [Bool.eq_iff_iff, bne_iff_ne, Ne, hzero, Bool.not_eq_false]

/-- A board of a model on which the tone output is that of port P7, and silent if the model
speaks. -/
structure Tuned (model : Model) (b : Board) : Prop where
  model_eq : b.model = model
  speaker_eq : b.speaker = (!model.hasSpeech && (b.display.nibble .p7).toNat.testBit 1)

theorem tuned_powerOn (model : Model) (window : UInt64) : Tuned model (powerOn model window) where
  model_eq := rfl
  speaker_eq := by
    show false = (!model.hasSpeech && (NibblePort.p7.extract 0).toNat.testBit 1)
    rw [show (NibblePort.p7.extract 0).toNat.testBit 1 = false by decide, Bool.and_false]

section Tuned

variable {model : Model} {b b' : Board}

/-- The output stays in step while neither it nor the register changes. -/
theorem Tuned.of_eq (h : Tuned model b) (hmodel : b'.model = b.model)
    (hspeaker : b'.speaker = b.speaker) (hregister : b'.display.register = b.display.register) :
    Tuned model b' where
  model_eq := hmodel.trans h.model_eq
  speaker_eq := by rw [hspeaker, h.speaker_eq, Display.nibble, Display.nibble, hregister]

/-- A port of the expander is written, directly or by a pulse of PROG, and shown. -/
theorem Tuned.nibbleShown (h : Tuned model b) (e : Expander) (port : NibblePort) (value : UInt8) :
    Tuned model
      (Board.nibbleShown port { b with expander := e, display := b.display.latch port value }) := by
  have hmodel := h.model_eq
  have hspeaker := h.speaker_eq
  unfold Board.nibbleShown
  dsimp only
  split
  · -- P7 is written on a model without speech: the output follows.
    rename_i hp
    refine ⟨hmodel, ?_⟩
    rw [hmodel] at hp
    dsimp only
    rw [and_toneMask_bne_zero, hp.2, Bool.true_and]
  · rename_i hp
    refine ⟨hmodel, hspeaker.trans ?_⟩
    -- Either the model speaks and is silent, or P7 is not the port that is written.
    cases hspeech : model.hasSpeech with
    | true => rfl
    | false =>
      have hne : NibblePort.p7 ≠ port := by
        rintro rfl
        exact hp ⟨rfl, by rw [hmodel, hspeech]; rfl⟩
      have hlatch := Display.nibble_latch b.display port .p7 value
      rw [if_neg hne] at hlatch
      rw [← hlatch]
      rfl

/-- The coprocessor drives PROG: the operation that this completes, if any, writes a port. -/
theorem Tuned.prog (h : Tuned model b) (value : UInt8) :
    Tuned model (b.afterPortOut value .prog) := by
  obtain idle | falls | rises | ⟨port, nibble, shown⟩ := afterPortOut_prog_cases b value
  · rwa [idle]
  · rw [falls]
    exact h.of_eq rfl rfl rfl
  · rw [rises]
    exact h.of_eq rfl rfl rfl
  · rw [shown]
    exact h.nibbleShown b.expander.rise port nibble

/-- The coprocessor writes a port. -/
theorem Tuned.afterPortOut (h : Tuned model b) (port : Port) (value : UInt8) :
    Tuned model (b.afterPortOut value port) := by
  cases port with
  | expander nibble => exact h.nibbleShown b.expander nibble value
  | prog => exact h.prog value
  | _ => exact h.of_eq rfl rfl rfl

/-- An access of the coprocessor. -/
theorem Tuned.afterAccess (h : Tuned model b) (a : Access) : Tuned model (b.afterAccess a).2 := by
  cases a with
  | output address value =>
    dsimp only [Board.afterAccess]
    cases Port.ofAddress? address with
    | none => exact h
    | some port => exact h.afterPortOut port value
  | input address =>
    obtain ⟨mailbox, hb⟩ := afterAccess_input b address
    rw [hb]
    exact h.of_eq rfl rfl rfl
  | _ => exact h

end Tuned

/-! ## Activities -/

section Activity

variable {model : Model}

/-- What is done to another part of the board than the display. -/
theorem maintains_tuned_within {σ α : Type} {get : Board → σ} {set : σ → Board → Board}
    (op : Op σ α) (h : ∀ t b, (set t b).model = b.model ∧ (set t b).speaker = b.speaker ∧
      (set t b).display = b.display) : Maintains (Tuned model) (within get set op) := by
  refine maintains_within_of_forall op fun t b hb => ?_
  obtain ⟨hmodel, hspeaker, hdisplay⟩ := h t b
  exact hb.of_eq hmodel hspeaker (congrArg _ hdisplay)

theorem maintains_tuned_onStall {α : Type} (op : Op StallControl α) :
    Maintains (Tuned model) (onStall op) :=
  maintains_tuned_within op fun _ _ => ⟨rfl, rfl, rfl⟩

theorem maintains_tuned_onMailbox {α : Type} (op : Op Mailbox α) :
    Maintains (Tuned model) (onMailbox op) :=
  maintains_tuned_within op fun _ _ => ⟨rfl, rfl, rfl⟩

/-- An access of the main unit reaches the mailbox or the stall control. -/
theorem maintains_tuned_perform_mainBus (a : Access) :
    Maintains (Tuned model) (a.perform mainBus) := by
  cases a with
  | output address value =>
    have write : Maintains (Tuned model) (mainBus.output address value) :=
      maintains_tuned_onMailbox _
    exact maintains_bind write fun _ => maintains_pure _
  | input address =>
    have read : Maintains (Tuned model) (mainBus.input address) := maintains_tuned_onMailbox _
    exact maintains_bind read fun _ => maintains_pure _
  | store address value =>
    have speak (word : UInt8) : Maintains (Tuned model) (speak word) := by
      refine maintains_bind (maintains_tuned_onStall _) fun begun => maintains_ite ?_ ?_
      · exact maintains_bind maintains_say fun _ =>
          maintains_update fun b hb => hb.of_eq rfl rfl rfl
      · exact maintains_pure _
    have store : Maintains (Tuned model) (mainBus.store address value) :=
      maintains_bind maintains_device fun b => maintains_ite (speak _) maintains_say
    exact maintains_bind store fun _ => maintains_pure _
  | load address =>
    have load : Maintains (Tuned model) (mainBus.load address) :=
      maintains_bind maintains_device fun b => maintains_ite (maintains_pure _)
        (maintains_bind maintains_say fun _ => maintains_pure _)
    exact maintains_bind load fun _ => maintains_pure _
  | idle => exact maintains_pure _

/-- An access of either processor, a key or a display tick. -/
theorem maintains_tuned_operation (o : Operation) : Maintains (Tuned model) o.perform := by
  cases o with
  | mcu a =>
    exact maintains_bind ((does_perform_mcuBus a).maintains fun b hb => hb.afterAccess a) fun _ =>
      maintains_pure _
  | main a => exact maintains_bind (maintains_tuned_perform_mainBus a) fun _ => maintains_pure _
  | key k pressed =>
    have press : Maintains (Tuned model) (Op.update (Board.setKey k pressed)) :=
      maintains_update fun b hb => hb.of_eq rfl rfl rfl
    exact press
  | tick =>
    intro s hs
    -- The register that counts is the one before the tick.
    have keep := Display.maintains_register_tick s.device.display.register
    have tick : Maintains
        (fun b => Tuned model b ∧ b.display.register = s.device.display.register)
        (onDisplay Display.tick) :=
      maintains_within keep (fun b hb => hb.2) fun d b hd hb =>
        ⟨hb.1.of_eq rfl rfl (hd.trans hb.2.symm), hd⟩
    exact (tick s ⟨hs, rfl⟩).1

/-- Whatever happens to a board keeps the output in step with the register. -/
theorem Activity.maintains_tuned (a : Activity) : Maintains (Tuned model) a.perform := by
  cases a with
  | operation o => exact maintains_tuned_operation o
  | swipe code =>
    have swipe : Maintains (Tuned model) (onScanner (Scanner.swipe code)) :=
      maintains_tuned_within _ fun _ _ => ⟨rfl, rfl, rfl⟩
    exact swipe
  | complete generation =>
    exact maintains_bind (maintains_tuned_onStall _) fun _ => maintains_pure _
  | advance cycles => exact maintains_bind (maintains_tuned_onStall _) fun _ => maintains_pure _
  | reset =>
    -- Both the register and the output are cleared.
    have reset : Maintains (Tuned model) (Op.update Board.reset) :=
      maintains_update fun b hb => (tuned_powerOn model b.display.window).of_eq hb.model_eq rfl rfl
    exact reset
  | shift =>
    have shift : Maintains (Tuned model)
        (Op.update fun b => { b with scanner := b.scanner.tick }) :=
      maintains_update fun b hb => hb.of_eq rfl rfl rfl
    exact shift
  | setTime now =>
    have set : Maintains (Tuned model) (Op.update (Board.setTime now)) :=
      maintains_update fun b hb => hb.of_eq rfl rfl rfl
    exact set
  | takePlayback =>
    have take : Maintains (Tuned model) (Op.update fun b => b.takePlayback.2) :=
      maintains_update fun b hb => hb.of_eq rfl rfl rfl
    exact take

theorem maintains_tuned_carryOut (activities : List Activity) :
    Maintains (Tuned model) (carryOut activities) := by
  induction activities with
  | nil => exact maintains_pure _
  | cons a rest ih => exact maintains_bind a.maintains_tuned fun _ => ih

end Activity

/-- The tone output follows the register. Whatever happens to a board after power-on, and wherever a
fault may end it, the model stays the same, and the level of the output is bit 1 of what port P7
holds on a model without speech, and low on a model with speech. -/
theorem tone_follows_register (model : Model) (window : UInt64) (log : Log)
    (activities : List Activity) :
    let b := (after (carryOut activities) ⟨powerOn model window, log⟩).device
    b.model = model ∧
      b.speaker = if model.hasSpeech then false else (b.display.nibble .p7).toNat.testBit 1 := by
  intro b
  have h : Tuned model b := maintains_tuned_carryOut activities ⟨powerOn model window, log⟩
    (tuned_powerOn model window)
  refine ⟨h.model_eq, h.speaker_eq.trans ?_⟩
  cases model.hasSpeech with
  | true => rfl
  | false => rfl

end Board

end CardComputer
