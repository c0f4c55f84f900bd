import CardComputer.Proofs.Board.Outcome
import CardComputer.Proofs.Link.Status

/-!
# The near side of the board

Of the board the main unit reaches the buffers and flags of the mailbox, the stall control and the
word for the speech unit, and no more. What is left is on the side of the coprocessor (`Board.near`,
`Board.keeps_near_perform_mainBus`). A coprocessor that does not look into the mailbox
(`Access.Deaf`) reads the same and does the same to the near side whatever the main unit has done
(`Board.near_afterAccess`).
-/

namespace CardComputer

open Op

/-- A port stands at its address only. -/
theorem Port.eq_address_of_ofAddress? {address : UInt8} {port : Port}
    (h : ofAddress? address = some port) : address = port.address := by
  unfold ofAddress? at h
  split at h
  case h_13 => cases h
  all_goals
    rename_i haddress
    cases h
    exact UInt8.toNat_inj.1 haddress

/-- An access that does not read what the main unit writes. -/
def Access.Deaf (a : Access) : Prop :=
  a ≠ .input Port.dbb.address ∧ a ≠ .input Port.sts.address

namespace Mailbox

/-- The host does not reach the coprocessor's flag. -/
theorem keeps_flag0_hostRead (fromStatus : Bool) : Keeps flag0 (hostRead fromStatus) := by
  refine (does_hostRead fromStatus).keeps fun m => ?_
  split
  · rfl
  · rfl

theorem keeps_flag0_hostWrite (command : Bool) (value : UInt8) :
    Keeps flag0 (hostWrite command value) :=
  (does_hostWrite command value).keeps fun _ => rfl

end Mailbox

namespace Board

/-- What the main unit cannot reach. The clock, which shows the time of the last access of either
processor, is left out, too. -/
def near (b : Board) : Board :=
  { b with
    mailbox := { Mailbox.empty with flag0 := b.mailbox.flag0 }
    stall := .fresh
    playback := none
    now := 0 }

/-! ## The main unit -/

theorem keeps_near_onMailbox {α : Type} {op : Op Mailbox α} (h : Keeps Mailbox.flag0 op) :
    Keeps near (onMailbox op) :=
  keeps_within_of_keeps h fun mailbox b hflag => by simp only [near, hflag]

theorem keeps_near_speak (word : UInt8) : Keeps near (speak word) := by
  refine keeps_bind (keeps_within (by intros; rfl) _) fun begun => ?_
  split
  · exact keeps_bind (keeps_say _ _ _) fun _ => keeps_update fun _ => rfl
  · exact keeps_pure _

/-- The main unit does not reach the near side. -/
theorem keeps_near_perform_mainBus (a : Access) : Keeps near (a.perform mainBus) := by
  cases a with
  | output address value =>
    have hk : Keeps near (mainBus.output address value) :=
      keeps_near_onMailbox (Mailbox.keeps_flag0_hostWrite _ _)
    exact keeps_bind hk fun _ => keeps_pure _
  | input address =>
    have hk : Keeps near (mainBus.input address) :=
      keeps_near_onMailbox (Mailbox.keeps_flag0_hostRead _)
    exact keeps_bind hk fun _ => keeps_pure _
  | store address value =>
    refine keeps_bind (keeps_bind keeps_device fun b => ?_) fun _ => keeps_pure _
    split
    · exact keeps_near_speak _
    · exact keeps_say _ _ _
  | load address =>
    refine keeps_bind (keeps_bind keeps_device fun b => ?_) fun _ => keeps_pure _
    split
    · exact keeps_pure _
    · exact keeps_bind (keeps_say _ _ _) fun _ => keeps_pure _
  | idle => exact keeps_pure _

/-! ## The coprocessor -/

theorem near_nibbleShown (port : NibblePort) (b : Board) :
    (b.nibbleShown port).near = b.near.nibbleShown port := by
  have hmodel : b.near.model = b.model := rfl
  unfold nibbleShown
  dsimp only
  rw [hmodel]
  split
  · rfl
  · rfl

/-- What a write to a port does to the near side depends on the near side only. -/
theorem near_afterPortOut (b : Board) (value : UInt8) (port : Port) :
    (b.near.afterPortOut value port).near = (b.afterPortOut value port).near := by
  cases port with
  | expander nibble =>
    dsimp only [afterPortOut]
    rw [near_nibbleShown, near_nibbleShown]
    rfl
  | prog =>
    have hdriven : ExpandedDisplay.driven (progLevel value) ⟨b.near.expander, b.near.display⟩ =
      ExpandedDisplay.driven (progLevel value) ⟨b.expander, b.display⟩ := rfl
    dsimp only [afterPortOut]
    rw [hdriven]
    rcases ExpandedDisplay.driven (progLevel value) ⟨b.expander, b.display⟩ with ⟨_ | nibble, s⟩
    · rfl
    · dsimp only
      rw [near_nibbleShown, near_nibbleShown]
      rfl
  | _ => rfl

/-- What is read from a port depends on the near side and the clock, but for the ports of the
mailbox. -/
theorem portLevel_near (b : Board) {port : Port} (hdbb : port ≠ .dbb) (hsts : port ≠ .sts) :
    (b.near.setTime b.now).portLevel port = b.portLevel port := by
  cases port with
  | dbb => exact absurd rfl hdbb
  | sts => exact absurd rfl hsts
  | f0 =>
    dsimp only [portLevel]
    rw [Mailbox.flag0_of_status, Mailbox.flag0_of_status]
    rfl
  | _ => rfl

/-- A deaf access reads and does the same whatever the main unit has done. -/
theorem near_afterAccess {a : Access} (deaf : a.Deaf) (b : Board) :
    ((b.near.setTime b.now).afterAccess a).1 = (b.afterAccess a).1 ∧
      ((b.near.setTime b.now).afterAccess a).2.near = (b.afterAccess a).2.near := by
  cases a with
  | output address value =>
    dsimp only [afterAccess]
    cases Port.ofAddress? address with
    | none => exact ⟨rfl, rfl⟩
    | some port =>
      refine ⟨rfl, ?_⟩
      exact (near_afterPortOut (b.near.setTime b.now) value port).symm.trans
        (near_afterPortOut b value port)
  | input address =>
    dsimp only [afterAccess]
    cases hp : Port.ofAddress? address with
    | none => exact ⟨rfl, rfl⟩
    | some port =>
      have haddress := Port.eq_address_of_ofAddress? hp
      have hdbb : port ≠ .dbb := by
        rintro rfl
        exact deaf.1 (congrArg Access.input haddress)
      have hsts : port ≠ .sts := by
        rintro rfl
        exact deaf.2 (congrArg Access.input haddress)
      refine ⟨congrArg some (portLevel_near b hdbb hsts), ?_⟩
      cases port with
      | dbb => exact absurd rfl hdbb
      | _ => rfl
  | _ => exact ⟨rfl, rfl⟩

end Board

end CardComputer
