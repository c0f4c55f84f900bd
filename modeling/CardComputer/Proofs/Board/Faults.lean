import CardComputer.Proofs.Board.Outcome
import CardComputer.Proofs.Op.Faults

/-!
# The faults of the board

Whatever happens on a board, its only faults are those of arithmetic: a counter that has no number
left, or a swipe whose message tells how far the one before it had come while that one is ahead of a
whole swipe. No board is excluded here, whether a host can bring it about or not.
-/

namespace CardComputer

open Op

/-! ## The parts of the board -/

/-- A stall begins. -/
theorem StallControl.raises_begin (source : StallSource) :
    Raises Fault.IsArithmetic (StallControl.begin source) := by
  refine raises_bind raises_device fun c => ?_
  split
  · refine raises_bind raises_say fun _ => raises_bind (raises_update _) fun _ => ?_
    apply raises_bind (raises_check fun fault h => isArithmetic_of_checkedAdd h)
    intro generation
    exact raises_bind (raises_update _) fun _ => raises_pure _
  · exact raises_bind raises_say fun _ => raises_pure _

theorem StallControl.raises_complete (generation : UInt64) :
    Raises Fault.IsArithmetic (StallControl.complete generation) := by
  refine raises_bind raises_device fun c => ?_
  apply raises_ite
  · refine raises_bind raises_say fun _ => raises_bind (raises_update _) fun _ => ?_
    apply raises_bind (raises_check fun fault h => isArithmetic_of_checkedAdd h)
    intro stalls
    exact raises_bind (raises_update _) fun _ => raises_pure _
  · exact raises_bind raises_say fun _ => raises_pure _

theorem StallControl.raises_advance (cycles : UInt32) :
    Raises Fault.IsArithmetic (StallControl.advance cycles) := by
  refine raises_bind raises_device fun c => ?_
  apply raises_ite
  · exact raises_pure _
  · apply raises_bind (raises_check fun fault h => isArithmetic_of_checkedAdd h)
    intro gatedCycles
    exact raises_bind (raises_update _) fun _ => raises_pure _

/-- A display tick. -/
theorem Display.raises_tick : Raises Fault.IsArithmetic Display.tick := by
  refine raises_bind raises_device fun d => ?_
  apply raises_bind (raises_check fun fault h => isArithmetic_of_checkedAdd h)
  intro now
  refine raises_bind (raises_update _) fun _ => ?_
  -- What follows are messages about the grids that go dark.
  refine raises_bind (Does.raises (does_forIn fun grid => ?_)) fun _ => raises_pure _
  exact does_bind does_say fun _ => does_pure _

/-- The message about a swipe can only fail at the distance that the swipe before it had come. -/
theorem Scanner.isArithmetic_of_swipeText {c : Scanner} {code : CardCode} {fault : Fault}
    (h : c.swipeText code () = .error fault) : fault.IsArithmetic := by
  unfold swipeText at h
  split at h
  · cases hp : c.position with
    | ok position =>
      rw [hp] at h
      cases h
    | error f =>
      rw [hp] at h
      cases h
      exact isArithmetic_of_checkedSub hp
  · cases h

theorem Scanner.raises_swipe (code : CardCode) :
    Raises Fault.IsArithmetic (Scanner.swipe code) := by
  refine raises_bind raises_device fun c => ?_
  apply raises_bind (raises_report fun fault h => Scanner.isArithmetic_of_swipeText h)
  intro _
  exact raises_update _

namespace Board

/-! ## The buses -/

theorem raises_speak (word : UInt8) : Raises Fault.IsArithmetic (speak word) := by
  apply raises_bind (raises_within (StallControl.raises_begin _))
  intro begun
  apply raises_ite
  · exact raises_bind raises_say fun _ => raises_update _
  · exact raises_pure _

/-- An access of the coprocessor cannot fail. -/
theorem raises_perform_mcuBus (a : Access) : Raises Fault.IsArithmetic (a.perform mcuBus) :=
  (does_perform_mcuBus a).raises

/-- An access of the main unit. -/
theorem raises_perform_mainBus (a : Access) : Raises Fault.IsArithmetic (a.perform mainBus) := by
  cases a with
  | output address value =>
    have h : Raises Fault.IsArithmetic (onMailbox (Mailbox.hostWrite (address &&& 1 != 0) value)) :=
      raises_within (Mailbox.does_hostWrite _ _).raises
    exact raises_bind h fun _ => raises_pure _
  | input address =>
    have h : Raises Fault.IsArithmetic (onMailbox (Mailbox.hostRead (address &&& 1 != 0))) :=
      raises_within (Mailbox.does_hostRead _).raises
    exact raises_bind h fun _ => raises_pure _
  | store address value =>
    refine raises_bind ?_ fun _ => raises_pure _
    exact raises_bind raises_device fun b => raises_ite (raises_speak _) raises_say
  | load address =>
    refine raises_bind ?_ fun _ => raises_pure _
    refine raises_bind raises_device fun b => raises_ite (raises_pure _) ?_
    exact raises_bind raises_say fun _ => raises_pure _
  | idle => exact raises_pure _

end Board

end CardComputer
