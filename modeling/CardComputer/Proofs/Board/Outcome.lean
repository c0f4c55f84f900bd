import CardComputer.Proofs.Board.Access
import CardComputer.Proofs.Log.Output
import CardComputer.Proofs.Op.Outcome

/-!
# What accesses do to the board

No access of the coprocessor can fail. What it reads and what it leaves behind are functions of the
board alone (`Board.afterAccess`, `Board.does_perform_mcuBus`), put together from those of the ports
(`Board.portLevel`, `Board.afterPortIn`, `Board.afterPortOut`).

An access of the main unit can only fail by beginning a stall for which there is no number left
(`Board.exists_perform_mainBus`), a display tick only by being one too many to be counted
(`Display.tick_cases`).
-/

namespace CardComputer

open Op

/-- Driving the select lines. -/
theorem SelectLines.does_drive (value : UInt8) :
    Does (SelectLines.drive value) fun _ => ((), ⟨value⟩) := by
  refine does_device_bind fun lines => ?_
  have zero : Does (if value = 0 then
      Op.say .bus .trace (fun _ => "Matrix: no column or grid selected") >>= fun _ =>
        Op.update fun _ => SelectLines.mk value
      else Op.update fun _ => SelectLines.mk value) fun _ => ((), ⟨value⟩) :=
    does_ite_say (does_update _)
  exact does_ite_say zero

/-- A commit reports what changes, in ascending order, and commits. -/
theorem Display.commit_eq (select : UInt8) (d : Display) (log : Log) :
    Display.commit select ⟨d, log⟩ = .ok () ⟨d.committed select, log.sayAll .display .trace
      ((SelectLines.asserted select).flatMap fun grid =>
        if (d.grids.get grid).segments ≠ d.register then [d.commitText grid] else [])⟩ := by
  unfold Display.commit
  rw [bind_of_ok (device_eq_ok.2 ⟨rfl, rfl⟩)]
  refine (bind_of_ok (forIn_sayAll_eq (fun grid log => ?_) _ log)).trans rfl
  split
  · exact bind_of_ok (say_eq _ _ _ d log)
  · rfl

theorem Display.does_commit (select : UInt8) :
    Does (Display.commit select) fun d => ((), d.committed select) :=
  fun s => ⟨_, Display.commit_eq select s.device s.log⟩

/-- The expander and the display after PROG was driven, with the port that this changes. -/
def ExpandedDisplay.driven (level : Bool) (s : ExpandedDisplay) :
    Option NibblePort × ExpandedDisplay :=
  if s.expander.prog && !level then
    (none, { s with expander := s.expander.fall s.display })
  else if !s.expander.prog && level then
    match s.expander.portWrite? s.display with
    | some w => (some w.port, ⟨s.expander.rise, s.display.latch w.port w.new⟩)
    | none => (none, { s with expander := s.expander.rise })
  else (none, s)

/-- A level that PROG already has does nothing. -/
theorem ExpandedDisplay.driven_of_eq {level : Bool} {s : ExpandedDisplay}
    (h : s.expander.prog = level) : driven level s = (none, s) := by
  cases level with
  | false => simp [driven, h]
  | true => simp [driven, h]

theorem ExpandedDisplay.driven_fall {s : ExpandedDisplay} (h : s.expander.prog = true) :
    driven false s = (none, { s with expander := s.expander.fall s.display }) := by
  simp [driven, h]

theorem ExpandedDisplay.driven_rise {s : ExpandedDisplay} (h : s.expander.prog = false) :
    driven true s = match s.expander.portWrite? s.display with
      | some w => (some w.port, ⟨s.expander.rise, s.display.latch w.port w.new⟩)
      | none => (none, { s with expander := s.expander.rise }) := by
  simp [driven, h]

/-- Driving PROG counts no display tick. -/
theorem ExpandedDisplay.now_driven (level : Bool) (s : ExpandedDisplay) :
    (driven level s).2.display.now = s.display.now := by
  unfold driven
  split
  · rfl
  · split
    · split
      · rfl
      · rfl
    · rfl

/-- Driving PROG. -/
theorem ExpandedDisplay.does_setProg (level : Bool) :
    Does (ExpandedDisplay.setProg level) (driven level) := by
  intro s
  unfold setProg driven
  rw [bind_of_ok (device_eq_ok.2 ⟨rfl, rfl⟩)]
  split
  · exact ⟨s.log, rfl⟩
  · split
    · rw [bind_of_ok (a := ()) (update_eq_ok.2 rfl)]
      cases s.device.expander.portWrite? s.device.display with
      | none => exact ⟨s.log, rfl⟩
      | some w =>
        exact does_bind does_say (fun _ => does_bind (does_update _) fun _ => does_pure _) _
    · exact ⟨s.log, rfl⟩

namespace Board

/-! ## Ports -/

/-- The board after a write to a port of the expander was shown. -/
def nibbleShown (port : NibblePort) (b : Board) : Board :=
  let shown := { b with display := b.display.committed b.lines.select }
  if port = .p7 ∧ !b.model.hasSpeech then
    { shown with speaker := shown.display.nibble .p7 &&& toneMask != 0 }
  else shown

/-- What follows a write to a port of the expander is a commit. -/
theorem display_nibbleShown (port : NibblePort) (b : Board) :
    (b.nibbleShown port).display = b.display.committed b.lines.select := by
  unfold nibbleShown
  dsimp only
  split
  · rfl
  · rfl

theorem does_nibbleWritten (port : NibblePort) :
    Does (nibbleWritten port) fun b => ((), b.nibbleShown port) := by
  intro s
  have commit : Does (onDisplay (Display.commit s.device.lines.select)) _ :=
    does_within (Display.does_commit _)
  obtain ⟨log, shown⟩ := commit s
  refine ⟨log, ?_⟩
  unfold nibbleWritten nibbleShown
  rw [bind_of_ok (device_eq_ok.2 ⟨rfl, rfl⟩), bind_of_ok shown]
  dsimp only
  split
  · rfl
  · rfl

/-- What the coprocessor reads from a port. -/
def portLevel (b : Board) : Port → UInt8
  | .p1 => b.lines.select
  | .p2 => b.expander.readP2 ||| b.keypad.rows b.lines.select <<< 4
  | .expander port => b.display.nibble port
  | .t0 => levelByte b.scanner.sense
  | .t1 => levelByte b.t1
  | .prog => 0xFF
  | .dbb => b.mailbox.input
  | .sts => b.mailbox.status
  | .f0 => levelByte (b.mailbox.status &&& 0x04 != 0)

/-- The board after the coprocessor read a port. -/
def afterPortIn (b : Board) : Port → Board
  | .dbb => { b with mailbox := b.mailbox.takeInput.2 }
  | _ => b

theorem does_portIn (port : Port) :
    Does (portIn port) fun b => (b.portLevel port, b.afterPortIn port) := by
  cases port with
  | dbb =>
    show Does (onMailbox (Op.change Mailbox.takeInput)) _
    exact does_within (does_change _)
  | prog => exact does_pure _
  | _ => exact does_bind does_device fun b => does_pure _

/-- The level to which a byte drives PROG. -/
def progLevel (value : UInt8) : Bool := value &&& 1 != 0

/-- The board after the coprocessor wrote a port. -/
def afterPortOut (value : UInt8) (b : Board) : Port → Board
  | .p1 => { b with lines := ⟨value⟩, display := b.display.committed value }
  | .p2 => { b with expander := b.expander.writeP2 value }
  | .expander nibble => nibbleShown nibble { b with display := b.display.latch nibble value }
  | .prog =>
    match ExpandedDisplay.driven (progLevel value) ⟨b.expander, b.display⟩ with
    | (some nibble, s) => nibbleShown nibble { b with expander := s.expander, display := s.display }
    | (none, s) => { b with expander := s.expander, display := s.display }
  | .dbb => { b with mailbox := b.mailbox.putOutput value }
  | .sts => { b with mailbox := b.mailbox.setStatus value }
  | .f0 => { b with mailbox := b.mailbox.setFlag0 (value &&& 1 != 0) }
  | .t0 | .t1 => b

theorem does_portOut (port : Port) (value : UInt8) :
    Does (portOut port value) fun b => ((), b.afterPortOut value port) := by
  unfold portOut
  cases port with
  | p1 =>
    exact does_bind (does_within (SelectLines.does_drive value)) fun _ =>
      does_within (Display.does_commit value)
  | expander nibble => exact does_bind (does_update _) fun _ => does_nibbleWritten nibble
  | prog =>
    have drive : Does (onExpander (ExpandedDisplay.setProg (value &&& 1 != 0))) _ :=
      does_within (ExpandedDisplay.does_setProg _)
    refine (does_bind drive (g := fun written b => ((), written.elim b (nibbleShown · b)))
      fun written => ?_).congr fun b => ?_
    · cases written with
      | none => exact does_pure _
      | some nibble => exact does_nibbleWritten nibble
    · -- The port that was changed is the first part of what was driven.
      dsimp only [afterPortOut, progLevel]
      rcases ExpandedDisplay.driven (value &&& 1 != 0) ⟨b.expander, b.display⟩ with ⟨_ | nibble, s⟩
      · rfl
      · rfl
  | t0 => exact does_say
  | t1 => exact does_say
  | _ => exact does_update _

section Prog

variable {b : Board} {value : UInt8}

/-- PROG stays as it is. -/
theorem afterPortOut_prog_of_eq (h : b.expander.prog = progLevel value) :
    b.afterPortOut value .prog = b := by
  have hdriven : ExpandedDisplay.driven (progLevel value) ⟨b.expander, b.display⟩ = _ :=
    ExpandedDisplay.driven_of_eq h
  simp only [afterPortOut, hdriven]

theorem afterPortOut_prog_fall (high : b.expander.prog = true) (low : progLevel value = false) :
    b.afterPortOut value .prog = { b with expander := b.expander.fall b.display } := by
  have hdriven : ExpandedDisplay.driven false ⟨b.expander, b.display⟩ = _ :=
    ExpandedDisplay.driven_fall high
  simp only [afterPortOut, low, hdriven]

/-- PROG rises: what the latched operation writes is shown. -/
theorem afterPortOut_prog_rise (low : b.expander.prog = false) (high : progLevel value = true) :
    b.afterPortOut value .prog = match b.expander.portWrite? b.display with
      | some w => nibbleShown w.port
        { b with expander := b.expander.rise, display := b.display.latch w.port w.new }
      | none => { b with expander := b.expander.rise } := by
  have hdriven : ExpandedDisplay.driven true ⟨b.expander, b.display⟩ = _ :=
    ExpandedDisplay.driven_rise low
  simp only [afterPortOut, high, hdriven]
  cases b.expander.portWrite? b.display with
  | none => rfl
  | some w => rfl

/-- What driving PROG comes to: nothing changes, an operation is latched, or a latched one ends, with
or without a port written. -/
theorem afterPortOut_prog_cases (b : Board) (value : UInt8) :
    b.afterPortOut value .prog = b ∨
    b.afterPortOut value .prog = { b with expander := b.expander.fall b.display } ∨
    b.afterPortOut value .prog = { b with expander := b.expander.rise } ∨
    ∃ port nibble, b.afterPortOut value .prog = nibbleShown port
      { b with expander := b.expander.rise, display := b.display.latch port nibble } := by
  by_cases same : b.expander.prog = progLevel value
  · exact .inl (afterPortOut_prog_of_eq same)
  cases hprog : b.expander.prog with
  | true =>
    have falls : progLevel value = false := by simpa [hprog] using same
    exact .inr (.inl (afterPortOut_prog_fall hprog falls))
  | false =>
    have rises : progLevel value = true := by simpa [hprog] using same
    have shown := afterPortOut_prog_rise hprog rises
    cases hwrite : b.expander.portWrite? b.display with
    | none => exact .inr (.inr (.inl (by rw [shown, hwrite])))
    | some w => exact .inr (.inr (.inr ⟨w.port, w.new, by rw [shown, hwrite]⟩))

end Prog

/-! ## Accesses -/

/-- What an access of the coprocessor reads, and the board after it. -/
def afterAccess (b : Board) : Access → Option UInt8 × Board
  | .output address value =>
    (none, (Port.ofAddress? address).elim b (b.afterPortOut value))
  | .input address =>
    match Port.ofAddress? address with
    | some port => (some (b.portLevel port), b.afterPortIn port)
    | none => (some Bus.floating, b)
  | .load _ => (some Bus.floating, b)
  | .store _ _ | .idle => (none, b)

/-- An access of the coprocessor does the same whatever the log, and cannot fail. -/
theorem does_perform_mcuBus (a : Access) : Does (a.perform mcuBus) (afterAccess · a) := by
  cases a with
  | output address value =>
    have write : Does (mcuBus.output address value) fun b =>
        ((), (Port.ofAddress? address).elim b (b.afterPortOut value)) := by
      dsimp only [mcuBus]
      cases Port.ofAddress? address with
      | none => exact does_say
      | some port => exact does_portOut port value
    exact does_bind write fun _ => does_pure none
  | input address =>
    have read : Does (mcuBus.input address) fun b =>
        (((Port.ofAddress? address).elim Bus.floating b.portLevel),
          (Port.ofAddress? address).elim b b.afterPortIn) := by
      dsimp only [mcuBus]
      cases Port.ofAddress? address with
      | none => exact does_bind does_say fun _ => does_pure _
      | some port => exact does_portIn port
    refine (does_bind read fun byte => does_pure (some byte)).congr fun b => ?_
    dsimp only [afterAccess]
    cases Port.ofAddress? address with
    | none => rfl
    | some port => rfl
  | store address value => exact does_pure _
  | load address => exact does_pure _
  | idle => exact does_pure _

/-- An access keeps what the coprocessor cannot reach. -/
theorem remote_afterAccess (b : Board) (a : Access) : (b.afterAccess a).2.remote = b.remote := by
  obtain ⟨log, h⟩ := does_perform_mcuBus a ⟨b, .fresh⟩
  exact keeps_perform_mcuBus a _ _ _ h

/-- Reading a port changes at most the mailbox. -/
theorem afterAccess_input (b : Board) (address : UInt8) :
    ∃ mailbox, (b.afterAccess (.input address)).2 = { b with mailbox } := by
  dsimp only [afterAccess]
  cases Port.ofAddress? address with
  | none => exact ⟨b.mailbox, rfl⟩
  | some port =>
    cases port with
    | dbb => exact ⟨b.mailbox.takeInput.2, rfl⟩
    | _ => exact ⟨b.mailbox, rfl⟩

/-- The coprocessor counts no display tick. -/
theorem display_now_afterAccess (b : Board) (a : Access) :
    (b.afterAccess a).2.display.now = b.display.now := by
  have shown (port : NibblePort) (b : Board) :
      (b.nibbleShown port).display.now = b.display.now := by
    rw [display_nibbleShown]
    rfl
  cases a with
  | output address value =>
    dsimp only [afterAccess]
    cases Port.ofAddress? address with
    | none => rfl
    | some port =>
      rw [Option.elim_some]
      cases port with
      | expander nibble => exact shown nibble _
      | prog =>
        have hdriven := ExpandedDisplay.now_driven (progLevel value) ⟨b.expander, b.display⟩
        dsimp only [afterPortOut]
        rcases hd : ExpandedDisplay.driven (progLevel value) ⟨b.expander, b.display⟩ with
          ⟨_ | nibble, s⟩
        · rw [hd] at hdriven
          exact hdriven
        · rw [hd] at hdriven
          exact (shown nibble _).trans hdriven
      | _ => rfl
  | input address =>
    obtain ⟨mailbox, hb⟩ := afterAccess_input b address
    rw [hb]
  | _ => rfl

end Board

/-! ## The main unit -/

theorem Mailbox.does_hostRead (fromStatus : Bool) :
    Does (Mailbox.hostRead fromStatus) fun m =>
      if fromStatus then (m.status, m) else m.takeOutput := by
  cases fromStatus with
  | true => exact does_bind does_device fun (m : Mailbox) => does_pure m.status
  | false => exact does_device_bind fun m => does_ite_say (does_change _)

theorem Mailbox.does_hostWrite (command : Bool) (value : UInt8) :
    Does (Mailbox.hostWrite command value) fun m => ((), m.putInput command value) :=
  does_device_bind fun _ => does_ite_say (does_update _)

/-- A stall begins, or goes on, unless it would be one too many. -/
theorem StallControl.exists_begin {c : StallControl}
    (h : c.state = .running → c.generation.toNat + 1 < UInt64.size) (log : Log) :
    ∃ begun s', StallControl.begin .speech ⟨c, log⟩ = .ok begun s' := by
  unfold StallControl.begin
  rw [bind_of_ok (device_eq_ok.2 ⟨rfl, rfl⟩)]
  dsimp only
  cases hc : c.state with
  | stalled =>
    -- A stall that goes on takes no number.
    exact exists_ok_of_say_bind fun log' => ⟨false, _, rfl⟩
  | running =>
    obtain ⟨generation, hadd⟩ : ∃ generation, checkedAdd c.generation 1 = .ok generation :=
      exists_checkedAdd (h hc)
    refine exists_ok_of_say_bind fun log' => ?_
    rw [bind_of_ok (a := ()) (update_eq_ok.2 rfl), hadd]
    exact ⟨true, _, rfl⟩

namespace Board

theorem exists_speak {b : Board}
    (h : b.stall.state = .running → b.stall.generation.toNat + 1 < UInt64.size) (word : UInt8)
    (log : Log) : ∃ u s', speak word ⟨b, log⟩ = .ok u s' := by
  obtain ⟨begun, t, ht⟩ := StallControl.exists_begin h log
  have hbegin : onStall (StallControl.begin .speech) ⟨b, log⟩ = .ok begun _ :=
    within_eq_ok.2 ⟨t, ht, rfl⟩
  unfold speak
  rw [bind_of_ok hbegin]
  cases begun with
  | false => exact ⟨_, _, rfl⟩
  | true => exact exists_ok_of_say_bind fun log' => ⟨(), _, rfl⟩

/-- An access of the main unit succeeds while there is a number left for a stall. -/
theorem exists_perform_mainBus {b : Board}
    (h : b.stall.state = .running → b.stall.generation.toNat + 1 < UInt64.size) (a : Access)
    (log : Log) : ∃ read s', a.perform mainBus ⟨b, log⟩ = .ok read s' := by
  cases a with
  | output address value =>
    have write : Does (onMailbox (Mailbox.hostWrite (address &&& 1 != 0) value)) _ :=
      does_within (Mailbox.does_hostWrite _ _)
    obtain ⟨log', hlog⟩ := does_bind write (fun _ => does_pure (none : Option UInt8)) ⟨b, log⟩
    exact ⟨_, _, hlog⟩
  | input address =>
    have read : Does (onMailbox (Mailbox.hostRead (address &&& 1 != 0))) _ :=
      does_within (Mailbox.does_hostRead _)
    obtain ⟨log', hlog⟩ := does_bind read (fun byte => does_pure (some byte)) ⟨b, log⟩
    exact ⟨_, _, hlog⟩
  | store address value =>
    -- Only a word for the speech unit begins a stall.
    obtain ⟨_, s', hs⟩ : ∃ u s', mainBus.store address value ⟨b, log⟩ = .ok u s' := by
      dsimp only [mainBus]
      rw [bind_of_ok (device_eq_ok.2 ⟨rfl, rfl⟩)]
      split
      · exact exists_speak h _ log
      · obtain ⟨log', hlog⟩ := does_say (⟨b, log⟩ : Observed Board)
        exact ⟨(), _, hlog⟩
    exact ⟨none, s', bind_of_ok hs⟩
  | load address =>
    obtain ⟨byte, s', hs⟩ : ∃ byte s', mainBus.load address ⟨b, log⟩ = .ok byte s' := by
      dsimp only [mainBus]
      rw [bind_of_ok (device_eq_ok.2 ⟨rfl, rfl⟩)]
      split
      · exact ⟨_, _, rfl⟩
      · exact exists_ok_of_say_bind fun log' => ⟨Bus.floating, _, rfl⟩
    exact ⟨some byte, s', bind_of_ok hs⟩
  | idle => exact ⟨none, _, rfl⟩

end Board

/-! ## The display -/

/-- A tick counts itself and says which grids go dark, unless it is one too many to be counted. -/
theorem Display.tick_cases (d : Display) (log : Log) :
    (UInt64.size ≤ d.now.toNat + 1 ∧ Display.tick ⟨d, log⟩ = .error .addOverflow ⟨d, log⟩) ∨
    ∃ now : UInt64, now.toNat = d.now.toNat + 1 ∧ Display.tick ⟨d, log⟩ =
      .ok () ⟨{ d with now }, log.sayAll .display .debug
        ((decaying { d with now }).map (decayText { d with now }))⟩ := by
  unfold Display.tick
  rw [bind_of_ok (device_eq_ok.2 ⟨rfl, rfl⟩)]
  cases hadd : checkedAdd d.now 1 with
  | error fault =>
    obtain ⟨rfl, hfull⟩ := checkedAdd_eq_error_iff.1 hadd
    exact .inl ⟨hfull, rfl⟩
  | ok now =>
    refine .inr ⟨now, checkedAdd_eq_ok_iff.1 hadd, ?_⟩
    have told (grid : Fin 8) (log : Log) : (do
        Op.say .display .debug fun _ => decayText { d with now } grid
        return .yield ⟨⟩ : Op Display (ForInStep PUnit)) ⟨{ d with now }, log⟩ = .ok (.yield ⟨⟩)
          ⟨{ d with now }, log.sayAll .display .debug [decayText { d with now } grid]⟩ :=
      bind_of_ok (say_eq _ _ _ _ log)
    rw [bind_of_ok (check_eq_ok.2 ⟨rfl, rfl⟩), bind_of_ok (a := ()) (update_eq_ok.2 rfl),
      bind_of_ok (forIn_sayAll_eq told _ log), ← List.map_eq_flatMap]
    rfl

/-- A tick succeeds while there is a number left to count it. -/
theorem Display.exists_tick {d : Display} (h : d.now.toNat + 1 < UInt64.size) (log : Log) :
    ∃ s', Display.tick ⟨d, log⟩ = .ok () s' := by
  rcases Display.tick_cases d log with ⟨hfull, -⟩ | ⟨now, -, htick⟩
  · exact absurd h (Nat.not_lt.2 hfull)
  · exact ⟨_, htick⟩

end CardComputer
