import CardComputer.Processor
import CardComputer.Proofs.Op.Unlogged

/-!
# The board and the log

What the processors do to the board through their buses does not depend on the log
(`Board.unlogged_perform_mcuBus`, `Board.unlogged_perform_mainBus`), and neither does what the
events of the timeline do to it. A swipe is the exception: its message tells how far the swipe
before it had come, which can only be said of a scanner that is not ahead of a whole swipe
(`Scanner.swipe_eq_ok_of_le`).
-/

namespace CardComputer

open Op

/-! ## The parts of the board -/

/-- Driving the select lines. -/
theorem SelectLines.unlogged_drive (value : UInt8) : Unlogged (SelectLines.drive value) := by
  refine unlogged_bind unlogged_device fun lines => ?_
  -- Both branches of the first choice go on with the second one.
  have rest : Unlogged (if value = 0 then
      (Op.say .bus .trace (fun _ => "Matrix: no column or grid selected") >>= fun _ =>
        Op.update fun _ => SelectLines.mk value)
      else Op.update fun _ => SelectLines.mk value) :=
    unlogged_ite (unlogged_bind unlogged_say fun _ => unlogged_update _) (unlogged_update _)
  exact unlogged_ite (unlogged_bind unlogged_say fun _ => rest) rest

theorem Display.unlogged_commit (select : UInt8) : Unlogged (Display.commit select) := by
  refine unlogged_bind unlogged_device fun d => ?_
  refine unlogged_bind (unlogged_forIn (fun grid _ => ?_) _) fun _ => unlogged_update _
  split
  · exact unlogged_bind unlogged_say fun _ => unlogged_pure _
  · exact unlogged_pure _

theorem Display.unlogged_tick : Unlogged Display.tick := by
  refine unlogged_bind unlogged_device fun d => ?_
  refine unlogged_bind (unlogged_check _) fun now => ?_
  refine unlogged_bind (unlogged_update _) fun _ => ?_
  exact unlogged_bind
    (unlogged_forIn (fun _ _ => unlogged_bind unlogged_say fun _ => unlogged_pure _) _)
    fun _ => unlogged_pure _

/-- Driving PROG. -/
theorem ExpandedDisplay.unlogged_setProg (level : Bool) :
    Unlogged (ExpandedDisplay.setProg level) := by
  refine unlogged_bind unlogged_device fun s => ?_
  split
  · exact unlogged_bind (unlogged_update _) fun _ => unlogged_pure _
  · split
    · refine unlogged_bind (unlogged_update _) fun _ => ?_
      split
      · exact unlogged_bind unlogged_say fun _ =>
          unlogged_bind (unlogged_update _) fun _ => unlogged_pure _
      · exact unlogged_pure _
    · exact unlogged_pure _

theorem Mailbox.unlogged_hostRead (fromStatus : Bool) : Unlogged (Mailbox.hostRead fromStatus) := by
  refine unlogged_bind unlogged_device fun m => ?_
  split
  · exact unlogged_pure _
  · split
    · exact unlogged_bind unlogged_say fun _ => unlogged_change _
    · exact unlogged_change _

theorem Mailbox.unlogged_hostWrite (command : Bool) (value : UInt8) :
    Unlogged (Mailbox.hostWrite command value) := by
  refine unlogged_bind unlogged_device fun m => ?_
  split
  · exact unlogged_bind unlogged_say fun _ => unlogged_update _
  · exact unlogged_update _

/-- A stall begins. -/
theorem StallControl.unlogged_begin (source : StallSource) :
    Unlogged (StallControl.begin source) := by
  refine unlogged_bind unlogged_device fun c => ?_
  split
  · exact unlogged_bind unlogged_say fun _ => unlogged_bind (unlogged_update _) fun _ =>
      unlogged_bind (unlogged_check _) fun _ => unlogged_bind (unlogged_update _) fun _ =>
        unlogged_pure _
  · exact unlogged_bind unlogged_say fun _ => unlogged_pure _

theorem StallControl.unlogged_complete (generation : UInt64) :
    Unlogged (StallControl.complete generation) := by
  refine unlogged_bind unlogged_device fun c => unlogged_ite ?_ ?_
  · exact unlogged_bind unlogged_say fun _ => unlogged_bind (unlogged_update _) fun _ =>
      unlogged_bind (unlogged_check _) fun _ => unlogged_bind (unlogged_update _) fun _ =>
        unlogged_pure _
  · exact unlogged_bind unlogged_say fun _ => unlogged_pure _

theorem StallControl.unlogged_advance (cycles : UInt32) :
    Unlogged (StallControl.advance cycles) := by
  refine unlogged_bind unlogged_device fun c => unlogged_ite (unlogged_pure _) ?_
  exact unlogged_bind (unlogged_check _) fun _ => unlogged_bind (unlogged_update _) fun _ =>
    unlogged_pure _

/-- The message about a swipe can be put together if the scanner is not ahead of a whole swipe. -/
theorem Scanner.exists_swipeText {c : Scanner} (code : CardCode)
    (h : c.remaining ≤ Swipe.halfBits.toUInt8) : ∃ message, c.swipeText code () = .ok message := by
  have hposition : c.position = .ok (Swipe.halfBits.toUInt8 - c.remaining) := if_pos h
  unfold Scanner.swipeText
  split
  · rw [hposition]
    exact ⟨_, rfl⟩
  · exact ⟨_, rfl⟩

/-- A swipe succeeds, whatever the log, if the scanner is not ahead of a whole swipe. -/
theorem Scanner.swipe_eq_ok_of_le {s : Observed Scanner} (code : CardCode)
    (h : s.device.remaining ≤ Swipe.halfBits.toUInt8) :
    ∃ log, Scanner.swipe code s = .ok () ⟨.loaded code, log⟩ := by
  obtain ⟨message, hmessage⟩ := Scanner.exists_swipeText code h
  obtain ⟨log, hreport⟩ := report_of_text hmessage s
  refine ⟨log, (bind_of_ok (device_eq_ok.2 ⟨rfl, rfl⟩)).trans ?_⟩
  exact (bind_of_ok hreport).trans rfl

namespace Board

/-! ## The ports of the coprocessor -/

theorem unlogged_nibbleWritten (port : NibblePort) : Unlogged (nibbleWritten port) := by
  refine unlogged_bind unlogged_device fun b => ?_
  refine unlogged_bind (unlogged_within (Display.unlogged_commit _)) fun _ => ?_
  exact unlogged_ite (unlogged_update _) (unlogged_pure _)

theorem unlogged_portIn (port : Port) : Unlogged (portIn port) := by
  cases port with
  | dbb =>
    show Unlogged (onMailbox (Op.change Mailbox.takeInput))
    exact unlogged_within (unlogged_change _)
  | prog => exact unlogged_pure _
  | _ => exact unlogged_bind unlogged_device fun _ => unlogged_pure _

theorem unlogged_portOut (port : Port) (value : UInt8) : Unlogged (portOut port value) := by
  unfold portOut
  cases port with
  | p1 =>
    exact unlogged_bind (unlogged_within (SelectLines.unlogged_drive _)) fun _ =>
      unlogged_within (Display.unlogged_commit _)
  | expander nibble =>
    exact unlogged_bind (unlogged_update _) fun _ => unlogged_nibbleWritten nibble
  | prog =>
    refine unlogged_bind (unlogged_within (ExpandedDisplay.unlogged_setProg _)) fun written => ?_
    cases written with
    | none => exact unlogged_pure _
    | some nibble => exact unlogged_nibbleWritten nibble
  | t0 => exact unlogged_say
  | t1 => exact unlogged_say
  | _ => exact unlogged_update _

/-! ## The buses -/

/-- An access of the coprocessor. -/
theorem unlogged_perform_mcuBus (a : Access) : Unlogged (a.perform mcuBus) := by
  cases a with
  | output address value =>
    refine unlogged_bind ?_ fun _ => unlogged_pure _
    dsimp only [mcuBus]
    split
    · exact unlogged_portOut _ _
    · exact unlogged_say
  | input address =>
    refine unlogged_bind ?_ fun _ => unlogged_pure _
    dsimp only [mcuBus]
    split
    · exact unlogged_portIn _
    · exact unlogged_bind unlogged_say fun _ => unlogged_pure _
  | store address value => exact unlogged_bind (unlogged_pure _) fun _ => unlogged_pure _
  | load address => exact unlogged_bind (unlogged_pure _) fun _ => unlogged_pure _
  | idle => exact unlogged_pure _

theorem unlogged_speak (word : UInt8) : Unlogged (speak word) := by
  refine unlogged_bind (unlogged_within (StallControl.unlogged_begin _)) fun begun => ?_
  exact unlogged_ite (unlogged_bind unlogged_say fun _ => unlogged_update _) (unlogged_pure _)

/-- An access of the main unit. -/
theorem unlogged_perform_mainBus (a : Access) : Unlogged (a.perform mainBus) := by
  cases a with
  | output address value =>
    have h : Unlogged (onMailbox (Mailbox.hostWrite (address &&& 1 != 0) value)) :=
      unlogged_within (Mailbox.unlogged_hostWrite _ _)
    exact unlogged_bind h fun _ => unlogged_pure _
  | input address =>
    have h : Unlogged (onMailbox (Mailbox.hostRead (address &&& 1 != 0))) :=
      unlogged_within (Mailbox.unlogged_hostRead _)
    exact unlogged_bind h fun _ => unlogged_pure _
  | store address value =>
    refine unlogged_bind ?_ fun _ => unlogged_pure _
    exact unlogged_bind unlogged_device fun b => unlogged_ite (unlogged_speak _) unlogged_say
  | load address =>
    refine unlogged_bind ?_ fun _ => unlogged_pure _
    refine unlogged_bind unlogged_device fun b => unlogged_ite (unlogged_pure _) ?_
    exact unlogged_bind unlogged_say fun _ => unlogged_pure _
  | idle => exact unlogged_pure _

end Board

end CardComputer
