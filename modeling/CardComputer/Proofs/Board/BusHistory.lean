import CardComputer.Proofs.Board.Outcome
import CardComputer.Proofs.Machine.Effect

/-!
# Histories of a board

What has happened to a board is told by a list of operations, the latest first
(`Board.Operation`, `Board.play`). Some of what the board holds is a matter of what was written to
which port last, and is read off the list alone: the select lines, the two pins of the expander, and
the four bits of each of its ports (`Board.select`, `Board.strobe`, `Board.p2`, `Board.held`). Every
write to a port keeps the board in agreement with its history (`Board.Reflects.afterPortOut`), and
what writes no port leaves all this alone (`Board.Reflects.of_remote`).
-/

namespace CardComputer

open Op

/-- A port holds what was latched last. -/
theorem Display.nibble_latch (d : Display) (port other : NibblePort) (value : UInt8) :
    (d.latch port value).nibble other =
      if other = port then value &&& 0x0F else d.nibble other := by
  unfold nibble latch
  by_cases h : other = port
  · rw [if_pos h, h]
    exact NibblePort.extract_insert_self port value d.register
  · rw [if_neg h]
    exact NibblePort.extract_insert_of_ne h value d.register

namespace Board

/-- Something that happens to a board. -/
inductive Operation where
  /-- An access of the coprocessor. -/
  | mcu (a : Access)
  /-- An access of the main unit. -/
  | main (a : Access)
  | key (k : Key) (pressed : Bool)
  /-- A display tick. -/
  | tick

namespace Operation

/-- Carries out an operation. -/
def perform : Operation → Op Board Unit
  | mcu a => do
    let _ ← a.perform mcuBus
  | main a => do
    let _ ← a.perform mainBus
  | key k pressed => Op.update (setKey k pressed)
  | tick => onDisplay Display.tick

/-- The port that the coprocessor writes in an operation, and the byte. -/
def written? : Operation → Option (Port × UInt8)
  | mcu (.output address value) => (Port.ofAddress? address).map fun port => (port, value)
  | _ => none

/-- The coprocessor writes a port in the operation. -/
def Writes (op : Operation) (port : Port) : Prop := ∃ value, op.written? = some (port, value)

theorem not_writes_of_silent {op : Operation} (h : op.written? = none) (port : Port) :
    ¬op.Writes port := by
  rintro ⟨value, hw⟩
  rw [h] at hw
  cases hw

theorem not_writes_of_ne {op : Operation} {p q : Port} {value : UInt8}
    (h : op.written? = some (p, value)) (hne : p ≠ q) : ¬op.Writes q := by
  rintro ⟨value, hw⟩
  rw [h] at hw
  exact hne (congrArg Prod.fst (Option.some.inj hw))

end Operation

/-- Carries out the operations of a history, in which the latest one comes first. -/
def play : List Operation → Op Board Unit
  | [] => return ()
  | op :: before => do
    play before
    op.perform

/-! ## What was written last -/

/-- The byte that was written to a port last. -/
def lastWritten (port : Port) (initial : UInt8) : List Operation → UInt8
  | [] => initial
  | op :: before =>
    match op.written? with
    | some (other, value) => if other = port then value else lastWritten port initial before
    | none => lastWritten port initial before

/-- The select lines: no line is asserted at first. -/
def select (history : List Operation) : UInt8 := lastWritten .p1 0 history

/-- The lower half of P2. -/
def p2 (history : List Operation) : UInt8 := lastWritten .p2 0x0F history &&& 0x0F

/-- The level of PROG, which is high at first. -/
def strobe (history : List Operation) : Bool := progLevel (lastWritten .prog 1 history)

/-- The lower half of P2 when PROG fell last. -/
def latched : List Operation → UInt8
  | [] => 0
  | op :: before =>
    match op.written? with
    | some (.prog, value) => if strobe before && !progLevel value then p2 before else latched before
    | _ => latched before

/-- The port of the expander that an operation writes, and its four bits, given the operations
before and what they left in the ports: those of a direct write or, if PROG rises, what P2 and the
port make with the operation that was latched when PROG fell. A read writes nothing. -/
def change? (op : Operation) (before : List Operation) (held : NibblePort → UInt8) :
    Option (NibblePort × UInt8) :=
  match op.written? with
  | some (.expander port, value) => some (port, value &&& 0x0F)
  | some (.prog, value) =>
    if !strobe before && progLevel value then
      let port := NibblePort.ofBits (latched before)
      match PortOp.ofBits (latched before >>> 2) with
      | .read => none
      | .write => some (port, p2 before &&& 0x0F)
      | .or => some (port, (held port ||| p2 before) &&& 0x0F)
      | .and => some (port, (held port &&& p2 before) &&& 0x0F)
    else none
  | _ => none

/-- The four bits that each port of the expander holds. -/
def held : List Operation → NibblePort → UInt8
  | [], _ => 0
  | op :: before, port =>
    match change? op before (held before) with
    | some (other, value) => if port = other then value else held before port
    | none => held before port

section Cons

variable {op : Operation} {port : Port} {value : UInt8}

/-- The latest operation counts. -/
theorem lastWritten_of_written (h : op.written? = some (port, value)) (initial : UInt8)
    (before : List Operation) : lastWritten port initial (op :: before) = value := by
  simp [lastWritten, h]

theorem lastWritten_of_not_writes (h : ¬op.Writes port) (initial : UInt8)
    (before : List Operation) :
    lastWritten port initial (op :: before) = lastWritten port initial before := by
  rw [lastWritten]
  split
  · rename_i other value hw
    rw [if_neg]
    rintro rfl
    exact h ⟨value, hw⟩
  · rfl

theorem latched_of_not_writes (h : ¬op.Writes .prog) (before : List Operation) :
    latched (op :: before) = latched before := by
  rw [latched]
  split
  · rename_i value hw
    exact absurd ⟨value, hw⟩ h
  · rfl

/-- Only a direct write or PROG can change a port of the expander. -/
theorem change?_of_not_writes (h : ¬op.Writes .prog) (h' : ∀ nibble, ¬op.Writes (.expander nibble))
    (before : List Operation) (held : NibblePort → UInt8) : change? op before held = none := by
  unfold change?
  split
  · rename_i nibble value hw
    exact absurd ⟨value, hw⟩ (h' nibble)
  · rename_i value hw
    exact absurd ⟨value, hw⟩ h
  · rfl

theorem held_of_none {before : List Operation} (h : change? op before (held before) = none) :
    held (op :: before) = held before := by
  funext port
  simp [held, h]

/-- Only what is written changes what was written last. -/
theorem select_of_not_writes {before : List Operation} (h : ¬op.Writes .p1) :
    select (op :: before) = select before :=
  lastWritten_of_not_writes h 0 before

theorem p2_of_not_writes {before : List Operation} (h : ¬op.Writes .p2) :
    p2 (op :: before) = p2 before :=
  congrArg (· &&& 0x0F) (lastWritten_of_not_writes h 0x0F before)

theorem held_of_not_writes {before : List Operation} (h : ¬op.Writes .prog)
    (h' : ∀ nibble, ¬op.Writes (.expander nibble)) : held (op :: before) = held before :=
  held_of_none (change?_of_not_writes h h' before _)

theorem held_of_some {before : List Operation} {changed : NibblePort}
    (h : change? op before (held before) = some (changed, value)) (port : NibblePort) :
    held (op :: before) port = if port = changed then value else held before port := by
  simp [held, h]

end Cons

/-! ## Agreement with the board -/

/-- The board agrees with what was written to its ports. -/
structure Reflects (history : List Operation) (b : Board) : Prop where
  select : b.lines.select = select history
  p2 : b.expander.p2 = p2 history
  strobe : b.expander.prog = strobe history
  /-- During a pulse of PROG the expander knows the operation and the port. -/
  pending : b.expander.pending = if Board.strobe history then none else
    some (PortOp.ofBits (latched history >>> 2), NibblePort.ofBits (latched history))
  held : ∀ port, b.display.nibble port = held history port

/-- A fresh board agrees with the empty history. -/
theorem reflects_powerOn (model : Model) (window : UInt64) :
    Reflects [] (powerOn model window) where
  select := rfl
  p2 := rfl
  strobe := rfl
  pending := rfl
  held port := by
    show NibblePort.extract port 0 = 0
    cases port <;> decide

section Reflects

variable {op : Operation} {before : List Operation} {b b' : Board}

/-- Without PROG nothing is latched. -/
theorem Reflects.of_not_prog (h : Reflects before b) (silent : ¬op.Writes .prog)
    (prog : b'.expander.prog = b.expander.prog) (pending : b'.expander.pending = b.expander.pending)
    (select : b'.lines.select = Board.select (op :: before))
    (p2 : b'.expander.p2 = Board.p2 (op :: before))
    (held : ∀ port, b'.display.nibble port = Board.held (op :: before) port) :
    Reflects (op :: before) b' := by
  have hstrobe : Board.strobe (op :: before) = Board.strobe before :=
    congrArg progLevel (lastWritten_of_not_writes silent 1 before)
  refine ⟨select, p2, ?_, ?_, held⟩
  · rw [prog, h.strobe, hstrobe]
  · rw [pending, h.pending, hstrobe, latched_of_not_writes silent]

/-- An operation that writes neither P1, nor P2, nor a port of the expander, nor PROG reaches
neither the select lines, nor the expander, nor the register. -/
theorem Reflects.of_remote (h : Reflects before b) (p1 : ¬op.Writes .p1) (p2 : ¬op.Writes .p2)
    (prog : ¬op.Writes .prog) (nibbles : ∀ nibble, ¬op.Writes (.expander nibble))
    (lines : b'.lines = b.lines) (expander : b'.expander = b.expander)
    (register : b'.display.register = b.display.register) : Reflects (op :: before) b' := by
  refine h.of_not_prog prog (congrArg _ expander) (congrArg _ expander) ?_ ?_ fun port => ?_
  · rw [lines, h.select, select_of_not_writes p1]
  · rw [expander, h.p2, p2_of_not_writes p2]
  · rw [held_of_not_writes prog nibbles, ← h.held port, Display.nibble, Display.nibble, register]

/-- What follows a write to a port of the expander reaches none of them either. -/
theorem Reflects.nibbleShown {history : List Operation} (h : Reflects history b)
    (port : NibblePort) : Reflects history (b.nibbleShown port) := by
  unfold Board.nibbleShown
  dsimp only
  split
  · exact ⟨h.select, h.p2, h.strobe, h.pending, h.held⟩
  · exact ⟨h.select, h.p2, h.strobe, h.pending, h.held⟩

/-- Driving PROG leaves the select lines and P2 alone. -/
theorem Reflects.of_prog {value : UInt8} (h : Reflects before b)
    (written : op.written? = some (.prog, value)) (lines : b'.lines = b.lines)
    (p2 : b'.expander.p2 = b.expander.p2) (prog : b'.expander.prog = progLevel value)
    (pending : b'.expander.pending = if progLevel value then none else some
      (PortOp.ofBits (latched (op :: before) >>> 2), NibblePort.ofBits (latched (op :: before))))
    (held : ∀ port, b'.display.nibble port = Board.held (op :: before) port) :
    Reflects (op :: before) b' := by
  have hstrobe : Board.strobe (op :: before) = progLevel value :=
    congrArg progLevel (lastWritten_of_written written 1 before)
  refine ⟨?_, ?_, prog.trans hstrobe.symm, ?_, held⟩
  · rw [lines, h.select, select_of_not_writes (Operation.not_writes_of_ne written nofun)]
  · rw [p2, h.p2, p2_of_not_writes (Operation.not_writes_of_ne written nofun)]
  · rw [pending, hstrobe]

/-- PROG is driven to the level that it has. -/
theorem Reflects.prog_same {value : UInt8} (h : Reflects before b)
    (written : op.written? = some (.prog, value)) (same : progLevel value = Board.strobe before) :
    Reflects (op :: before) b := by
  have hlatched : latched (op :: before) = latched before := by simp [latched, written, same]
  have hchange : change? op before (Board.held before) = none := by simp [change?, written, same]
  refine h.of_prog written rfl rfl (h.strobe.trans same.symm) ?_ ?_
  · rw [h.pending, same, hlatched]
  · rw [held_of_none hchange]
    exact h.held

/-- PROG falls: the operation and its port are latched from P2. -/
theorem Reflects.fall {value : UInt8} (h : Reflects before b)
    (written : op.written? = some (.prog, value)) (high : Board.strobe before = true)
    (low : progLevel value = false) :
    Reflects (op :: before) { b with expander := b.expander.fall b.display } := by
  have hlatched : latched (op :: before) = Board.p2 before := by
    simp [latched, written, high, low]
  have hchange : change? op before (Board.held before) = none := by
    simp [change?, written, high]
  refine h.of_prog written rfl rfl low.symm ?_ ?_
  · rw [low, if_neg Bool.false_ne_true, hlatched, ← h.p2]
    rfl
  · rw [held_of_none hchange]
    exact h.held

/-- PROG rises after a read, or after an operation that changes a port. -/
theorem Reflects.rise {value : UInt8} (h : Reflects before b)
    (written : op.written? = some (.prog, value)) (low : Board.strobe before = false)
    (high : progLevel value = true) :
    match b.expander.portWrite? b.display with
    | some w => change? op before (Board.held before) = some (w.port, w.new &&& 0x0F) ∧
      Reflects (op :: before)
        { b with expander := b.expander.rise, display := b.display.latch w.port w.new }
    | none => change? op before (Board.held before) = none ∧
      Reflects (op :: before) { b with expander := b.expander.rise } := by
  -- The operation on the port that was latched gives the change.
  have hpending := h.pending
  rw [low, if_neg Bool.false_ne_true] at hpending
  have hwrite : b.expander.portWrite? b.display =
      ((PortOp.ofBits (latched before >>> 2)).result?
        (Board.held before (NibblePort.ofBits (latched before))) (Board.p2 before)).map fun new =>
          ⟨PortOp.ofBits (latched before >>> 2), NibblePort.ofBits (latched before),
            Board.held before (NibblePort.ofBits (latched before)), new⟩ := by
    simp only [Expander.portWrite?, hpending, h.held, h.p2]
  have hchange : change? op before (Board.held before) =
      (b.expander.portWrite? b.display).map fun w => (w.port, w.new &&& 0x0F) := by
    rw [hwrite]
    simp only [change?, written, low, high, Bool.not_false, Bool.true_and, if_true]
    cases PortOp.ofBits (latched before >>> 2) <;> rfl
  have rest (display : Display)
      (held : ∀ port, display.nibble port = Board.held (op :: before) port) :
      Reflects (op :: before) { b with expander := b.expander.rise, display } :=
    h.of_prog written rfl rfl high.symm (by rw [high, if_pos rfl]; rfl) held
  cases hw : b.expander.portWrite? b.display with
  | none =>
    rw [hw] at hchange
    refine ⟨hchange, rest b.display fun port => ?_⟩
    rw [held_of_none hchange]
    exact h.held port
  | some w =>
    rw [hw] at hchange
    refine ⟨hchange, rest (b.display.latch w.port w.new) fun port => ?_⟩
    rw [held_of_some hchange, Display.nibble_latch, h.held port]

/-- PROG is driven: if this changes a port of the expander, the change is committed, and otherwise
the display stays as it is. -/
theorem Reflects.prog {value : UInt8} (h : Reflects before b)
    (written : op.written? = some (.prog, value)) :
    Reflects (op :: before) (b.afterPortOut value .prog) ∧
      ((change? op before (Board.held before) = none ∧
        (b.afterPortOut value .prog).display = b.display) ∨
      ∃ port new, change? op before (Board.held before) = some (port, new &&& 0x0F) ∧
        (b.afterPortOut value .prog).display =
          (b.display.latch port new).committed b.lines.select) := by
  -- Either the level stays, or it falls, or it rises: only an edge does something.
  by_cases same : progLevel value = Board.strobe before
  · rw [afterPortOut_prog_of_eq (h.strobe.trans same.symm)]
    exact ⟨h.prog_same written same, Or.inl ⟨by simp [change?, written, same], rfl⟩⟩
  · cases high : Board.strobe before with
    | true =>
      have low : progLevel value = false := by simpa [high] using same
      rw [afterPortOut_prog_fall (h.strobe.trans high) low]
      exact ⟨h.fall written high low, Or.inl ⟨by simp [change?, written, high], rfl⟩⟩
    | false =>
      have hlevel : progLevel value = true := by simpa [high] using same
      have hrise := h.rise written high hlevel
      rw [afterPortOut_prog_rise (h.strobe.trans high) hlevel]
      revert hrise
      cases b.expander.portWrite? b.display with
      | none => exact fun hrise => ⟨hrise.2, Or.inl ⟨hrise.1, rfl⟩⟩
      | some w =>
        intro hrise
        exact ⟨hrise.2.nibbleShown w.port,
          Or.inr ⟨w.port, w.new, hrise.1, display_nibbleShown w.port _⟩⟩

/-- The coprocessor writes a port. -/
theorem Reflects.afterPortOut {port : Port} {value : UInt8} (h : Reflects before b)
    (written : op.written? = some (port, value)) :
    Reflects (op :: before) (b.afterPortOut value port) := by
  have other {port' : Port} := Operation.not_writes_of_ne (q := port') written
  cases port with
  | p1 =>
    refine h.of_not_prog (other nofun) rfl rfl ?_ ?_ fun port => ?_
    · exact (lastWritten_of_written written 0 before).symm
    · rw [p2_of_not_writes (other nofun)]
      exact h.p2
    · rw [held_of_not_writes (other nofun) fun _ => other nofun]
      exact h.held port
  | p2 =>
    refine h.of_not_prog (other nofun) rfl rfl ?_ ?_ fun port => ?_
    · rw [select_of_not_writes (other nofun)]
      exact h.select
    · rw [Board.p2, lastWritten_of_written written]
      rfl
    · rw [held_of_not_writes (other nofun) fun _ => other nofun]
      exact h.held port
  | expander nibble =>
    have hchange : change? op before (Board.held before) = some (nibble, value &&& 0x0F) := by
      simp [change?, written]
    have latch : Reflects (op :: before) { b with display := b.display.latch nibble value } := by
      refine h.of_not_prog (other nofun) rfl rfl ?_ ?_ fun port => ?_
      · rw [select_of_not_writes (other nofun)]
        exact h.select
      · rw [p2_of_not_writes (other nofun)]
        exact h.p2
      · rw [held_of_some hchange, Display.nibble_latch, h.held port]
    exact latch.nibbleShown nibble
  | prog => exact (h.prog written).1
  | _ =>
    exact h.of_remote (other nofun) (other nofun) (other nofun) (fun _ => other nofun) rfl rfl rfl

end Reflects

end Board

end CardComputer
