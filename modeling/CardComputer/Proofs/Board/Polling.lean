import CardComputer.Proofs.Board.Outcome
import CardComputer.Proofs.Link.Status

/-!
# Polling the mailbox

The main unit and the coprocessor exchange bytes through the mailbox. Each of them reads the status
byte and, in a later access, writes if the other side's buffer was empty or reads if its own was
full. In between the other one may do what it likes within the same rules. Then nothing is lost and
nothing arrives twice, in either direction (`Board.polling_loses_nothing`).

Each direction is a `Channel`: what was sent and received, and what the two sides have seen of the
full flag since they last made use of it. What a side has seen stays true until it makes use of it,
because only that side can undo it (`Channel.Holds`).
-/

namespace CardComputer

open Op

/-! ## One direction -/

/-- One direction of the mailbox, as its two sides know it. -/
structure Channel (α : Type) where
  /-- What was sent, the first item first. -/
  sent : List α
  /-- What was received, the first item first. -/
  received : List α
  /-- Whether the sender has seen the buffer empty since it last sent something. -/
  seenEmpty : Bool
  /-- Whether the receiver has seen the buffer full since it last received something. -/
  seenFull : Bool

namespace Channel

variable {α : Type}

/-- Nothing sent and nothing seen. -/
def fresh : Channel α := ⟨[], [], false, false⟩

/-- The sender looks at the full flag. -/
def senderLooks (full : Bool) (c : Channel α) : Channel α :=
  { c with seenEmpty := c.seenEmpty || !full }

/-- The receiver looks at the full flag. -/
def receiverLooks (full : Bool) (c : Channel α) : Channel α :=
  { c with seenFull := c.seenFull || full }

/-- Something is sent. -/
def send (item : α) (c : Channel α) : Channel α :=
  { c with sent := c.sent ++ [item], seenEmpty := false }

/-- Something is received. -/
def receive (item : α) (c : Channel α) : Channel α :=
  { c with received := c.received ++ [item], seenFull := false }

/-- The channel fits a buffer: all that was sent was received, but for what the buffer holds if it
is full, and what the two sides have seen is still so. -/
structure Holds (c : Channel α) (full : Bool) (content : α) : Prop where
  sent : c.sent = c.received ++ if full then [content] else []
  /-- Nobody but the sender fills the buffer. -/
  empty : c.seenEmpty = true → full = false
  /-- Nobody but the receiver empties it. -/
  full : c.seenFull = true → full = true

variable {c : Channel α} {full : Bool} {content : α}

theorem holds_fresh : Holds fresh false content := by
  constructor
  · simp [fresh]
  · simp [fresh]
  · simp [fresh]

theorem Holds.senderLooks (h : c.Holds full content) : (c.senderLooks full).Holds full content := by
  refine ⟨h.sent, fun hseen => ?_, h.full⟩
  cases full with
  | false => rfl
  | true => exact h.empty (by simpa [Channel.senderLooks] using hseen)

theorem Holds.receiverLooks (h : c.Holds full content) :
    (c.receiverLooks full).Holds full content := by
  refine ⟨h.sent, h.empty, fun hseen => ?_⟩
  cases full with
  | false => exact h.full (by simpa [Channel.receiverLooks] using hseen)
  | true => rfl

/-- What is sent to a buffer that was seen empty does not take the place of anything. -/
theorem Holds.send (h : c.Holds full content) (hseen : c.seenEmpty = true) (item : α) :
    (c.send item).Holds true item := by
  obtain rfl := h.empty hseen
  refine ⟨?_, ?_, fun _ => rfl⟩
  · have hsent := h.sent
    simp only [Bool.false_eq_true, if_false, List.append_nil] at hsent
    simp [Channel.send, hsent]
  · simp [Channel.send]

/-- What is received from a buffer that was seen full was not received before. -/
theorem Holds.receive (h : c.Holds full content) (hseen : c.seenFull = true) :
    (c.receive content).Holds false content := by
  obtain rfl := h.full hseen
  refine ⟨?_, fun _ => rfl, ?_⟩
  · simpa [Channel.receive] using h.sent
  · simp [Channel.receive]

/-- What a channel delivers, given the full flag of its buffer. -/
structure Delivers (c : Channel α) (full : Bool) : Prop where
  /-- What was received is what was sent, in this order and each item once. -/
  order : c.received <+: c.sent
  /-- At most one item is outstanding. -/
  lag : c.sent.length ≤ c.received.length + 1
  /-- One is outstanding exactly if the flag is set. -/
  outstanding : full = true ↔ c.sent.length = c.received.length + 1

theorem Holds.delivers (h : c.Holds full content) : c.Delivers full := by
  have hlength := congrArg List.length h.sent
  rw [List.length_append] at hlength
  refine ⟨⟨_, h.sent.symm⟩, ?_, ?_⟩
  · cases full with
    | false => simp at hlength; omega
    | true => simp at hlength; omega
  · cases full with
    | false => simp at hlength ⊢; omega
    | true => simpa using hlength

end Channel

namespace Board

/-! ## Accesses to the mailbox -/

/-- A word for the speech unit does nothing to the mailbox. -/
theorem keeps_speak_mailbox (word : UInt8) : Keeps mailbox (speak word) := by
  refine keeps_bind (keeps_within (by intros; rfl) _) fun begun => ?_
  split
  · exact keeps_bind (keeps_say _ _ _) fun _ => keeps_update (by intros; rfl)
  · exact keeps_pure _

/-- What an access of the main unit does to the mailbox, and what it reads from it. -/
inductive MainAccess (m : Mailbox) : Access → Option UInt8 → Mailbox → Prop
  | status {port : UInt8} (odd : (port &&& 1 != 0) = true) :
      MainAccess m (.input port) (some m.status) m
  | data {port : UInt8} (even : (port &&& 1 != 0) = false) :
      MainAccess m (.input port) (some m.output) { m with outputFull := false }
  | write (port value : UInt8) :
      MainAccess m (.output port value) none (m.putInput (port &&& 1 != 0) value)
  /-- What happens in memory leaves the mailbox alone. -/
  | other {a : Access} {read : Option UInt8} (input : ∀ port, a ≠ .input port)
      (output : ∀ port value, a ≠ .output port value) : MainAccess m a read m

/-- An access of the main unit is one of these. -/
theorem mainAccess_of_perform {a : Access} {b : Board} {log : Log} {read : Option UInt8}
    {s' : Observed Board} (h : a.perform mainBus ⟨b, log⟩ = .ok read s') :
    MainAccess b.mailbox a read s'.device.mailbox := by
  cases a with
  | output port value =>
    have write : Does (onMailbox (Mailbox.hostWrite (port &&& 1 != 0) value)) _ :=
      does_within (Mailbox.does_hostWrite _ _)
    obtain ⟨hread, hb⟩ := (does_bind write fun _ => does_pure (none : Option UInt8)).of_ok h
    rw [hread, hb]
    exact .write port value
  | input port =>
    have look : Does (onMailbox (Mailbox.hostRead (port &&& 1 != 0))) _ :=
      does_within (Mailbox.does_hostRead _)
    obtain ⟨hread, hb⟩ := (does_bind look fun byte => does_pure (some byte)).of_ok h
    rw [hread, hb]
    -- The lowest bit of the address selects the status byte.
    cases hport : port &&& 1 != 0 with
    | true => exact .status hport
    | false => exact .data hport
  | store address value =>
    have hk : Keeps mailbox ((Access.store address value).perform mainBus) := by
      refine keeps_bind (keeps_bind keeps_device fun b => ?_) fun _ => keeps_pure _
      split
      · exact keeps_speak_mailbox _
      · exact keeps_say _ _ _
    rw [hk _ _ _ h]
    exact .other nofun nofun
  | load address =>
    have hk : Keeps mailbox ((Access.load address).perform mainBus) := by
      refine keeps_bind (keeps_bind keeps_device fun b => ?_) fun _ => keeps_pure _
      split
      · exact keeps_pure _
      · exact keeps_bind (keeps_say _ _ _) fun _ => keeps_pure _
    rw [hk _ _ _ h]
    exact .other nofun nofun
  | idle =>
    obtain ⟨rfl, rfl⟩ := pure_eq_ok.1 h
    exact .other nofun nofun

/-- Showing a write to the expander does nothing to the mailbox. -/
theorem mailbox_nibbleShown (port : NibblePort) (b : Board) :
    (b.nibbleShown port).mailbox = b.mailbox := by
  unfold nibbleShown
  dsimp only
  split
  · rfl
  · rfl

/-- What an access of the coprocessor does to the mailbox, and what it reads from it. -/
inductive McuAccess (m : Mailbox) : Access → Option UInt8 → Mailbox → Prop
  | status {address : UInt8} (port : Port.ofAddress? address = some .sts) :
      McuAccess m (.input address) (some m.status) m
  | data {address : UInt8} (port : Port.ofAddress? address = some .dbb) :
      McuAccess m (.input address) (some m.input) { m with inputFull := false }
  | write {address : UInt8} (port : Port.ofAddress? address = some .dbb) (value : UInt8) :
      McuAccess m (.output address value) none (m.putOutput value)
  /-- The coprocessor's flag and the upper half of the status byte are nobody else's. -/
  | other {a : Access} {read : Option UInt8} (flag0 : Bool) (userStatus : UInt8)
      (input : ∀ address, a = .input address →
        Port.ofAddress? address ≠ some .sts ∧ Port.ofAddress? address ≠ some .dbb)
      (output : ∀ address value, a = .output address value →
        Port.ofAddress? address ≠ some .dbb) :
      McuAccess m a read { m with flag0, userStatus }

/-- A write of the coprocessor to a port that is not the buffer's. -/
theorem mailbox_afterPortOut (b : Board) (value : UInt8) {port : Port} (hport : port ≠ .dbb) :
    ∃ flag0 userStatus, (b.afterPortOut value port).mailbox =
      { b.mailbox with flag0, userStatus } := by
  have kept {m : Mailbox} (h : m = b.mailbox) :
      ∃ flag0 userStatus, m = { b.mailbox with flag0, userStatus } :=
    ⟨b.mailbox.flag0, b.mailbox.userStatus, h⟩
  cases port with
  | dbb => exact absurd rfl hport
  | sts => exact ⟨b.mailbox.flag0, value &&& 0xF0, rfl⟩
  | f0 => exact ⟨value &&& 1 != 0, b.mailbox.userStatus, rfl⟩
  | expander nibble => exact kept (mailbox_nibbleShown nibble _)
  | prog =>
    apply kept
    dsimp only [afterPortOut]
    split
    · exact mailbox_nibbleShown _ _
    · rfl
  | _ => exact kept rfl

/-- An access of the coprocessor is one of these. -/
theorem mcuAccess_of_perform {a : Access} {b : Board} {log : Log} {read : Option UInt8}
    {s' : Observed Board} (h : a.perform mcuBus ⟨b, log⟩ = .ok read s') :
    McuAccess b.mailbox a read s'.device.mailbox := by
  obtain ⟨hread, hb⟩ := (does_perform_mcuBus a).of_ok h
  rw [hread, hb]
  cases a with
  | output address value =>
    dsimp only [afterAccess]
    cases hport : Port.ofAddress? address with
    | none => exact .other _ _ nofun fun _ _ h => by cases h; simp [hport]
    | some port =>
      by_cases hdbb : port = .dbb
      · subst hdbb
        exact .write hport value
      · obtain ⟨flag0, userStatus, hm⟩ := mailbox_afterPortOut b value hdbb
        rw [Option.elim_some, hm]
        exact .other flag0 userStatus nofun fun _ _ h => by cases h; simpa [hport] using hdbb
  | input address =>
    dsimp only [afterAccess]
    cases hport : Port.ofAddress? address with
    | none => exact .other _ _ (fun _ h => by cases h; simp [hport]) nofun
    | some port =>
      cases port with
      | sts => exact .status hport
      | dbb => exact .data hport
      | _ => exact .other _ _ (fun _ h => by cases h; simp [hport]) nofun
  | _ => exact .other _ _ nofun nofun

end Board

/-! ## Exchanges -/

/-- The two directions of the mailbox. With each byte for the coprocessor goes whether it is a
command. -/
structure Exchange where
  toMcu : Channel (UInt8 × Bool)
  toHost : Channel UInt8

namespace Exchange

open Mailbox (showsInput showsOutput)

/-- Nothing exchanged. -/
def fresh : Exchange := ⟨.fresh, .fresh⟩

/-- What the main unit has to have seen before an access: an empty buffer before it writes, a full
one before it reads data. -/
def MainMay (x : Exchange) : Access → Prop
  | .input port => (port &&& 1 != 0) = false → x.toHost.seenFull = true
  | .output _ _ => x.toMcu.seenEmpty = true
  | _ => True

/-- What the coprocessor has to have seen before an access. -/
def McuMay (x : Exchange) : Access → Prop
  | .input address => Port.ofAddress? address = some .dbb → x.toMcu.seenFull = true
  | .output address _ => Port.ofAddress? address = some .dbb → x.toHost.seenEmpty = true
  | _ => True

/-- The exchange after an access of the main unit. What it has seen is in the byte that it read. -/
def afterMain (a : Access) (read : Option UInt8) (x : Exchange) : Exchange :=
  match a, read with
  | .input port, some byte =>
    if port &&& 1 != 0 then
      ⟨x.toMcu.senderLooks (showsInput byte), x.toHost.receiverLooks (showsOutput byte)⟩
    else { x with toHost := x.toHost.receive byte }
  | .output port value, _ => { x with toMcu := x.toMcu.send (value, port &&& 1 != 0) }
  | _, _ => x

/-- The exchange after an access of the coprocessor, with the flag that stood at it. -/
def afterMcu (a : Access) (read : Option UInt8) (flag1 : Bool) (x : Exchange) : Exchange :=
  match a, read with
  | .input address, some byte =>
    match Port.ofAddress? address with
    | some .sts =>
      ⟨x.toMcu.receiverLooks (showsInput byte), x.toHost.senderLooks (showsOutput byte)⟩
    | some .dbb => { x with toMcu := x.toMcu.receive (byte, flag1) }
    | _ => x
  | .output address value, _ =>
    if Port.ofAddress? address = some .dbb then { x with toHost := x.toHost.send value } else x
  | _, _ => x

/-- An exchange fits a mailbox in both directions. -/
structure Fits (x : Exchange) (m : Mailbox) : Prop where
  toMcu : x.toMcu.Holds m.inputFull (m.input, m.flag1)
  toHost : x.toHost.Holds m.outputFull m.output

variable {x : Exchange} {m m' : Mailbox} {a : Access} {read : Option UInt8}

/-- An access of the main unit that keeps to the rules. -/
theorem Fits.main (h : x.Fits m) (may : x.MainMay a) (access : Board.MainAccess m a read m') :
    (x.afterMain a read).Fits m' := by
  cases access with
  | status odd =>
    simp only [afterMain, odd, if_true, Mailbox.showsInput_status, Mailbox.showsOutput_status]
    exact ⟨h.toMcu.senderLooks, h.toHost.receiverLooks⟩
  | data even =>
    simp only [afterMain, even, Bool.false_eq_true, if_false]
    exact ⟨h.toMcu, h.toHost.receive (may even)⟩
  | write port value => exact ⟨h.toMcu.send may _, h.toHost⟩
  | other input output =>
    cases a with
    | input port => exact absurd rfl (input port)
    | output port value => exact absurd rfl (output port value)
    | _ => exact h

/-- An access of the coprocessor that keeps to the rules. -/
theorem Fits.mcu (h : x.Fits m) (may : x.McuMay a) (access : Board.McuAccess m a read m') :
    (x.afterMcu a read m.flag1).Fits m' := by
  cases access with
  | status port =>
    simp only [afterMcu, port, Mailbox.showsInput_status, Mailbox.showsOutput_status]
    exact ⟨h.toMcu.receiverLooks, h.toHost.senderLooks⟩
  | data port =>
    simp only [afterMcu, port]
    exact ⟨h.toMcu.receive (may port), h.toHost⟩
  | write port value =>
    simp only [afterMcu, port, if_true]
    exact ⟨h.toMcu, h.toHost.send (may port) value⟩
  | other flag0 userStatus input output =>
    -- Neither buffer nor its flag is touched, and nothing is seen of them.
    have hx : x.afterMcu a read m.flag1 = x := by
      unfold afterMcu
      split
      · rename_i address byte
        obtain ⟨hsts, hdbb⟩ := input address rfl
        split
        · rename_i hport
          exact absurd hport hsts
        · rename_i hport
          exact absurd hport hdbb
        · rfl
      · rename_i address value
        rw [if_neg (output address value rfl)]
      · rfl
    rw [hx]
    exact ⟨h.toMcu, h.toHost⟩

end Exchange

namespace Board

/-- An exchange over the mailbox of a board, which starts empty. The two processors make accesses in
any order, each keeping to its own rules, and whatever else happens on the board leaves the mailbox
alone. -/
inductive Polled : Exchange → Board → Prop
  | start {b : Board} (h : b.mailbox = .empty) : Polled .fresh b
  | main {x : Exchange} {b b' : Board} {a : Access} {read : Option UInt8} {log log' : Log}
    (before : Polled x b) (may : x.MainMay a)
    (h : a.perform mainBus ⟨b, log⟩ = .ok read ⟨b', log'⟩) : Polled (x.afterMain a read) b'
  | mcu {x : Exchange} {b b' : Board} {a : Access} {read : Option UInt8} {log log' : Log}
    (before : Polled x b) (may : x.McuMay a)
    (h : a.perform mcuBus ⟨b, log⟩ = .ok read ⟨b', log'⟩) :
    Polled (x.afterMcu a read b.mailbox.flag1) b'
  | other {x : Exchange} {b b' : Board} (before : Polled x b) (h : b'.mailbox = b.mailbox) :
    Polled x b'

/-- An exchange fits the mailbox at every moment. -/
theorem Polled.fits {x : Exchange} {b : Board} (h : Polled x b) : x.Fits b.mailbox := by
  induction h with
  | start h =>
    rw [h]
    exact ⟨Channel.holds_fresh, Channel.holds_fresh⟩
  | main before may h ih => exact ih.main may (mainAccess_of_perform h)
  | mcu before may h ih => exact ih.mcu may (mcuAccess_of_perform h)
  | other before h ih =>
    rw [h]
    exact ih

/-- Polling loses nothing. What the coprocessor has read, each byte with the flag that stood at it,
is at every moment a prefix of what the main unit has written, each byte with whether it is a
command; the bytes that the main unit has read are a prefix of those that the coprocessor has
written; and in both directions at most one is outstanding, and one exactly if the full flag is
set. -/
theorem polling_loses_nothing {x : Exchange} {b : Board} (h : Polled x b) :
    x.toMcu.Delivers b.mailbox.inputFull ∧ x.toHost.Delivers b.mailbox.outputFull :=
  ⟨h.fits.toMcu.delivers, h.fits.toHost.delivers⟩

/-- The main unit writes a command, the coprocessor reads it and replies, and the main unit reads
the reply; each looks at the status byte before. -/
theorem command_and_reply : ∃ x b, Polled x b ∧ x.toMcu.received = [(0x80, true)] ∧
    x.toHost.received = [0x81] ∧
    x.toMcu.Delivers b.mailbox.inputFull ∧ x.toHost.Delivers b.mailbox.outputFull := by
  have start : Polled .fresh (powerOn .vbrc 1) := .start rfl
  have ready := @Polled.main _ _ _ (.input 1) _ .fresh _ start nofun rfl
  have written := @Polled.main _ _ _ (.output 1 0x80) _ .fresh _ ready rfl rfl
  have seen := @Polled.mcu _ _ _ (.input Port.sts.address) _ .fresh _ written nofun rfl
  have taken := @Polled.mcu _ _ _ (.input Port.dbb.address) _ .fresh _ seen (fun _ => rfl) rfl
  have replied := @Polled.mcu _ _ _ (.output Port.dbb.address 0x81) _ .fresh _ taken
    (fun _ => rfl) rfl
  have noticed := @Polled.main _ _ _ (.input 1) _ .fresh _ replied nofun rfl
  have answered := @Polled.main _ _ _ (.input 0) _ .fresh _ noticed (fun _ => rfl) rfl
  exact ⟨_, _, answered, rfl, rfl, polling_loses_nothing answered⟩

end Board

end CardComputer
