import CardComputer.Proofs.Board.Apart
import CardComputer.Proofs.Link.Status

/-!
# The handshake of the expander

The coprocessor can write a port of the display directly, or through the expander: a command on P2,
PROG low, the operand on P2, PROG high (`Board.Pulse.drive`). Both come to the same
(`Board.handshake_agrees`): whatever happens to the board in between, a pulse does what one direct
write does that is made where PROG rises, with the operand worked into the four bits that the port
holds then; a read writes nothing and commits nothing. Only what the coprocessor wrote to P2 is
different afterwards.

The proof follows the pulse with two boards that differ in their expanders only, of which one makes
the pulse and the other one waits. What happens in between keeps them so, because it is apart from
the expander, and the last edge brings both to the same display.
-/

namespace CardComputer

open Op

/-! ## Four bits -/

theorem shiftLeft_and (value : UInt8) : value <<< 4 &&& 0x0F = 0 := by
  apply UInt8.toBitVec_inj.1
  simp only [UInt8.toBitVec_and, UInt8.toBitVec_shiftLeft]
  ext i hi
  have : i = 0 ∨ i = 1 ∨ i = 2 ∨ i = 3 ∨ i = 4 ∨ i = 5 ∨ i = 6 ∨ i = 7 := by omega
  rcases this with rfl | rfl | rfl | rfl | rfl | rfl | rfl | rfl <;> simp

/-- A port holds four bits. -/
theorem Display.nibble_and (d : Display) (port : NibblePort) :
    d.nibble port &&& 0x0F = d.nibble port := by
  rw [nibble, NibblePort.extract, UInt16.toUInt8_and]
  show _ &&& (0x0F : UInt8) &&& 0x0F = _
  rw [UInt8.and_assoc, UInt8.and_self]
  rfl

/-- Only the lower four bits of a byte are latched. -/
theorem Display.latch_congr {value value' : UInt8} (h : value &&& 0x0F = value' &&& 0x0F)
    (d : Display) (port : NibblePort) : d.latch port value = d.latch port value' := by
  have widened (byte : UInt8) : byte.toUInt16 &&& 0xF = (byte &&& 0x0F).toUInt16 := by
    rw [UInt8.toUInt16_and]
    rfl
  unfold latch NibblePort.insert
  rw [widened, widened, h]

namespace PortOp

/-- The two bits that select an operation. -/
def code : PortOp → UInt8
  | read => 0
  | write => 1
  | or => 2
  | and => 3

/-- Of the operand only the lower four bits count. -/
theorem latch_result? (op : PortOp) (current operand : UInt8) (d : Display) (port : NibblePort) :
    (op.result? current (operand &&& 0x0F)).map (d.latch port) =
      (op.result? current operand).map (d.latch port) := by
  have twice : operand &&& 0x0F &&& 0x0F = operand &&& 0x0F := by
    rw [UInt8.and_assoc, UInt8.and_self]
  cases op with
  | read => rfl
  | write => exact congrArg some (Display.latch_congr twice d port)
  | or =>
    refine congrArg some (Display.latch_congr ?_ d port)
    rw [Mailbox.or_and_right, Mailbox.or_and_right, twice]
  | and =>
    refine congrArg some (Display.latch_congr ?_ d port)
    rw [UInt8.and_assoc, twice, UInt8.and_assoc]

end PortOp

/-- The two bits that select a port. -/
def NibblePort.code (port : NibblePort) : UInt8 := UInt8.ofNat port.index

namespace Board

/-! ## Pulses -/

/-- A pulse of PROG. -/
structure Pulse where
  op : PortOp
  port : NibblePort
  /-- What is on the upper half of P2 together with the command. -/
  upper : UInt8
  operand : UInt8
  /-- The byte with which PROG is lowered. -/
  low : UInt8
  /-- The byte with which PROG is raised. -/
  high : UInt8
  falls : progLevel low = false
  rises : progLevel high = true

namespace Pulse

/-- The byte on P2 when PROG falls: the operation and the port are on the lower half. -/
def command (p : Pulse) : UInt8 := p.upper <<< 4 ||| (p.op.code <<< 2 ||| p.port.code)

/-- The command, up to where PROG falls, with other activities in between. -/
def lower (p : Pulse) (before : List Activity) : Op Board Unit := do
  portOut .p2 p.command
  carryOut before
  portOut .prog p.low

/-- The whole pulse, with other activities in between. -/
def drive (p : Pulse) (before during after : List Activity) : Op Board Unit := do
  p.lower before
  carryOut during
  portOut .p2 p.operand
  carryOut after
  portOut .prog p.high

/-- The direct write that does what the pulse does, given what the port holds. A read makes none. -/
def write (p : Pulse) : Op Board Unit := do
  let b ← Op.device
  match p.op with
  | .read => return ()
  | .write => portOut (.expander p.port) p.operand
  | .or => portOut (.expander p.port) (b.display.nibble p.port ||| p.operand)
  | .and => portOut (.expander p.port) (b.display.nibble p.port &&& p.operand)

/-- The same activities, and the direct write where PROG rises. -/
def direct (p : Pulse) (before during after : List Activity) : Op Board Unit := do
  carryOut before
  carryOut during
  carryOut after
  p.write

/-- The command selects the operation and the port. -/
theorem ofBits_command (p : Pulse) :
    PortOp.ofBits ((p.command &&& 0x0F) >>> 2) = p.op ∧
      NibblePort.ofBits (p.command &&& 0x0F) = p.port := by
  have bits : p.command &&& (0x0F : UInt8) =
      (p.op.code <<< 2 ||| p.port.code) &&& (0x0F : UInt8) := by
    unfold command
    rw [Mailbox.or_and_right, shiftLeft_and, UInt8.zero_or]
  rw [bits]
  -- What is left are the sixteen commands.
  cases p.op <;> cases p.port <;> decide

/-- The expander after the command was written to P2. -/
def commanded (p : Pulse) (e : Expander) : Expander := e.writeP2 p.command

/-- The expander that has latched the command from a display. -/
def latched (p : Pulse) (e : Expander) (d : Display) : Expander where
  prog := false
  pending := some (p.op, p.port)
  p2 := p.command &&& 0x0F
  readData := if p.op = .read then some (d.nibble p.port) else e.readData

theorem fall_commanded (p : Pulse) (e : Expander) (d : Display) :
    (p.commanded e).fall d = p.latched e d := by
  obtain ⟨hop, hport⟩ := p.ofBits_command
  simp only [commanded, latched, Expander.fall, Expander.writeP2, hop, hport]

end Pulse

/-! ## What the steps of a pulse do -/

section Steps

variable {s t : Observed Board} {value : UInt8}

/-- Writing P2. -/
theorem portOut_p2 (s : Observed Board) (value : UInt8) : portOut .p2 value s =
    .ok () ⟨s.device.plug (s.device.expander.writeP2 value), s.log⟩ := rfl

/-- A level that PROG already has changes nothing, not even the log. -/
theorem portOut_prog_same (h : progLevel value = s.device.expander.prog) :
    portOut .prog value s = .ok () s := by
  have unchanged : onExpander (ExpandedDisplay.setProg (progLevel value)) s = .ok none s := by
    refine within_eq_ok.2 ⟨⟨⟨s.device.expander, s.device.display⟩, s.log⟩, ?_, rfl⟩
    unfold ExpandedDisplay.setProg
    rw [bind_of_ok (device_eq_ok.2 ⟨rfl, rfl⟩), h]
    cases s.device.expander.prog <;> rfl
  exact bind_of_ok unchanged

/-- PROG falls. -/
theorem portOut_prog_fall (high : s.device.expander.prog = true) (low : progLevel value = false) :
    portOut .prog value s =
      .ok () ⟨s.device.plug (s.device.expander.fall s.device.display), s.log⟩ := by
  have fallen : onExpander (ExpandedDisplay.setProg (progLevel value)) s =
      .ok none ⟨s.device.plug (s.device.expander.fall s.device.display), s.log⟩ := by
    refine within_eq_ok.2 ⟨⟨⟨s.device.expander.fall s.device.display, s.device.display⟩, s.log⟩,
      ?_, rfl⟩
    unfold ExpandedDisplay.setProg
    rw [bind_of_ok (device_eq_ok.2 ⟨rfl, rfl⟩), low]
    simp only [high]
    rfl
  exact bind_of_ok fallen

end Steps

/-! ## A pulse and a direct write -/

theorem nibbleShown_plug (e : Expander) (b : Board) (port : NibblePort) :
    (b.plug e).nibbleShown port = (b.nibbleShown port).plug e := by
  have hmodel : (b.plug e).model = b.model := rfl
  unfold nibbleShown
  dsimp only
  rw [hmodel]
  split <;> rfl

/-- The board after the direct write. -/
def Pulse.written (p : Pulse) (b : Board) : Board :=
  match p.op with
  | .read => b
  | .write => b.afterPortOut p.operand (.expander p.port)
  | .or => b.afterPortOut (b.display.nibble p.port ||| p.operand) (.expander p.port)
  | .and => b.afterPortOut (b.display.nibble p.port &&& p.operand) (.expander p.port)

theorem Pulse.does_write (p : Pulse) : Does p.write fun b => ((), p.written b) := by
  intro s
  unfold write written
  rw [bind_of_ok (device_eq_ok.2 ⟨rfl, rfl⟩)]
  cases p.op with
  | read => exact ⟨s.log, rfl⟩
  | write | or | and => exact does_portOut (.expander p.port) _ s

/-- The direct write is that of what the operation of the expander results in. -/
theorem Pulse.written_eq (p : Pulse) (b : Board) : p.written b =
    ((p.op.result? (b.display.nibble p.port) p.operand).map
      fun value => b.afterPortOut value (.expander p.port)).getD b := by
  unfold written
  cases p.op <;> rfl

/-- The rising edge of PROG does what the direct write does. -/
theorem Pulse.afterPortOut_rise (p : Pulse) {e : Expander} (b : Board) (low : e.prog = false)
    (pending : e.pending = some (p.op, p.port)) (operand : e.p2 = p.operand &&& 0x0F) :
    (b.plug e).afterPortOut p.high .prog = (p.written b).plug e.rise := by
  have hwrite : e.portWrite? b.display =
      (p.op.result? (b.display.nibble p.port) (p.operand &&& 0x0F)).map fun new =>
        ⟨p.op, p.port, b.display.nibble p.port, new⟩ := by
    unfold Expander.portWrite?
    rw [pending, operand]
  have latched := p.op.latch_result? (b.display.nibble p.port) p.operand b.display p.port
  have hrise : (b.plug e).expander.portWrite? (b.plug e).display = _ := hwrite
  rw [afterPortOut_prog_rise (b := b.plug e) low p.rises, hrise, written_eq]
  -- Both write something or both write nothing, and what is latched is the same.
  cases hnew : p.op.result? (b.display.nibble p.port) (p.operand &&& 0x0F) with
  | none =>
    rw [hnew] at latched
    rw [Option.map_eq_none_iff.1 latched.symm]
    rfl
  | some new =>
    rw [hnew] at latched
    obtain ⟨value, hvalue, same⟩ := Option.map_eq_some_iff.1 latched.symm
    rw [hvalue]
    show nibbleShown p.port (({ b with display := b.display.latch p.port new }).plug e.rise) = _
    dsimp only [afterPortOut, Option.map_some, Option.getD_some]
    rw [nibbleShown_plug, same]

/-- Two boards that differ in nothing but what the coprocessor wrote to P2. -/
def OnlyP2 (operand : UInt8) (s t : Observed Board) : Prop :=
  s.device = t.device.plug { t.device.expander with p2 := operand &&& 0x0F }

theorem Pulse.expander_written (p : Pulse) (b : Board) : (p.written b).expander = b.expander := by
  unfold written
  cases p.op with
  | read => rfl
  | write | or | and => exact expander_nibbleShown _ _

section Agree

variable {e : Expander}

/-- One board waits while the other one has latched the command. -/
def Pulse.Lowered (p : Pulse) (e : Expander) (s t : Observed Board) : Prop :=
  ∃ d, Swapped (p.latched e d) e s t

/-- One board waits while the other one has the operand on P2. -/
def Pulse.Armed (p : Pulse) (e : Expander) (s t : Observed Board) : Prop :=
  ∃ d, Swapped ((p.latched e d).writeP2 p.operand) e s t

/-- What is apart from the expander can be done while a pulse goes on. -/
theorem Apart.sim_swapped {op : Op Board Unit} (h : Apart op) (f : Display → Expander)
    (e : Expander) : Sim Strict (fun s t => ∃ d, Swapped (f d) e s t)
      (fun s t => ∃ d, Swapped (f d) e s t) (· = ·) op op := by
  rintro s t ⟨d, hst⟩
  exact (h (f d) e s t hst).mono (fun _ _ h => h) fun _ _ hst => ⟨d, hst⟩

/-- The command and the falling edge, of which nothing is seen on the other board. -/
theorem Pulse.sim_lower (p : Pulse) (high : e.prog = true) {before : List Activity}
    (hbefore : ∀ a ∈ before, a.Aside) :
    Sim Strict (fun s t => s = t ∧ t.device.expander = e)
      (fun s t => Swapped (p.latched e t.device.display) e s t) (· = ·)
      (p.lower before) (carryOut before) := by
  have command : ∀ s t, s = t ∧ t.device.expander = e →
      ∃ u s', portOut .p2 p.command s = .ok u s' ∧ Swapped (p.commanded e) e s' t := by
    rintro s _ ⟨rfl, rfl⟩
    exact ⟨(), _, portOut_p2 s p.command, rfl, rfl⟩
  -- The other board does what is done in between, and nothing before or after it.
  refine sim_left_bind command fun _ => sim_bind_left (apart_carryOut hbefore _ e) ?_
  rintro _ _ s t rfl ⟨rfl, ht⟩
  refine ⟨(), _, portOut_prog_fall high p.falls, rfl, ?_, ht⟩
  show _ = (⟨t.device.plug (p.latched e t.device.display), t.log⟩ : Observed Board)
  rw [← p.fall_commanded]
  rfl

/-- The operand on P2, of which nothing is seen on the other board either. -/
theorem Pulse.portOut_operand (p : Pulse) {s t : Observed Board} (h : p.Lowered e s t) :
    ∃ u s', portOut .p2 p.operand s = .ok u s' ∧ p.Armed e s' t := by
  obtain ⟨d, rfl, ht⟩ := h
  exact ⟨(), _, portOut_p2 _ p.operand, d, rfl, ht⟩

/-- PROG rises on the one board, while the port is written directly on the other. -/
theorem Pulse.sim_rise (p : Pulse) (sound : e.Sound) (high : e.prog = true) :
    Sim Strict (p.Armed e) (OnlyP2 p.operand) (· = ·) (portOut .prog p.high) p.write := by
  rintro s t ⟨d, rfl, rfl⟩
  -- Neither of the two last steps can fail, so their boards are compared.
  obtain ⟨log, hrise⟩ := does_portOut .prog p.high
    ⟨t.device.plug ((p.latched t.device.expander d).writeP2 p.operand), t.log⟩
  obtain ⟨log', hwrite⟩ := p.does_write t
  rw [hrise, hwrite]
  refine .ok rfl ?_
  -- The expander is at rest again, as the other one has been all the time.
  have rest : ((p.latched t.device.expander d).writeP2 p.operand).rise =
      { t.device.expander with p2 := p.operand &&& 0x0F } := by
    simp [Pulse.latched, Expander.writeP2, Expander.rise, high, sound.pending_eq_none high,
      sound.quiet high]
  show afterPortOut p.high (t.device.plug _) .prog = _
  rw [p.afterPortOut_rise t.device rfl rfl rfl, rest, ← p.expander_written]

/-- A pulse agrees with a direct write where PROG rises. -/
theorem Pulse.sim_drive (p : Pulse) (sound : e.Sound) (high : e.prog = true)
    {before during after : List Activity} (hbefore : ∀ a ∈ before, a.Aside)
    (hduring : ∀ a ∈ during, a.Aside) (hafter : ∀ a ∈ after, a.Aside) :
    Sim Strict (fun s t => s = t ∧ t.device.expander = e) (OnlyP2 p.operand) (· = ·)
      (p.drive before during after) (p.direct before during after) := by
  have lowered := (p.sim_lower high hbefore).mono (fun _ _ h => h) (fun _ _ h => h)
    fun s t h => (⟨t.device.display, h⟩ : p.Lowered e s t)
  refine sim_bind lowered fun _ _ _ => ?_
  refine sim_bind ((apart_carryOut hduring).sim_swapped _ e) fun _ _ _ => ?_
  refine sim_left_bind (fun s t hst => p.portOut_operand hst) fun _ => ?_
  refine sim_bind ((apart_carryOut hafter).sim_swapped _ e) fun _ _ _ => ?_
  exact p.sim_rise sound high

end Agree

/-! ## What P2 shows during a read -/

/-- What an expander has latched. -/
def latch (b : Board) : Bool × Option (PortOp × NibblePort) × Option UInt8 :=
  (b.expander.prog, b.expander.pending, b.expander.readData)

/-- Without PROG and without a reset nothing is latched anew. -/
theorem Activity.keeps_latch {a : Activity} (hreset : a ≠ .reset) (hprog : ¬a.Writes .prog) :
    Keeps latch a.perform := by
  intro s u s' h
  -- Writing P2 changes the expander, but not what it has latched.
  by_cases hp2 : a.Writes .p2
  · obtain ⟨value, written⟩ := perform_of_writes hp2
    rw [written, portOut_p2] at h
    cases h
    rfl
  · unfold latch
    rw [(Activity.apart ⟨hreset, hp2, hprog⟩).keeps s u s' h]

theorem keeps_latch_carryOut {activities : List Activity}
    (h : ∀ a ∈ activities, a ≠ .reset ∧ ¬a.Writes .prog) : Keeps latch (carryOut activities) := by
  induction activities with
  | nil => exact keeps_pure _
  | cons a rest ih =>
    obtain ⟨hreset, hprog⟩ := h a List.mem_cons_self
    exact keeps_bind (Activity.keeps_latch hreset hprog) fun _ =>
      ih fun x hx => h x (List.mem_cons_of_mem a hx)

/-- When PROG has fallen for a read, the expander drives what the port holds. -/
theorem Pulse.readData_of_lower (p : Pulse) (read : p.op = .read) {s t : Observed Board}
    (high : s.device.expander.prog = true) {before : List Activity}
    (hbefore : ∀ a ∈ before, a.Aside) (h : p.lower before s = .ok () t) :
    t.device.expander.readData = some (t.device.display.nibble p.port) := by
  -- The board that waits has the same display.
  have agree := p.sim_lower high hbefore s s ⟨rfl, rfl⟩
  rw [h] at agree
  generalize carryOut before s = waiting at agree
  cases agree with
  | ok answers states =>
    obtain ⟨rfl, -⟩ := states
    exact if_pos read

/-- The lower half of P2 shows what the expander drives. -/
theorem portIn_p2_and {s : Observed Board} {driven : UInt8}
    (h : s.device.expander.readData = some driven) :
    ∃ byte, portIn .p2 s = .ok byte s ∧ byte &&& 0x0F = driven &&& 0x0F := by
  refine ⟨_, rfl, ?_⟩
  dsimp only [Expander.readP2]
  rw [h, Mailbox.or_and_right, shiftLeft_and, UInt8.or_zero, Option.getD_some, UInt8.and_assoc,
    UInt8.and_self]

/-! ## The handshake -/

/-- The handshake of the expander agrees with direct access. On every board that has come about:

- An operation is pending exactly while PROG is low.
- A level that PROG already has changes nothing.
- A pulse, whatever is done in between apart from the expander, has the same fault or leaves the
  same board as the same activities with a direct write where PROG rises, but for P2, which holds
  the operand. The write is that of the operand, alone or combined with what the port holds there by
  OR or AND. A read makes no such write.
- From the falling edge of a read on, while PROG is low, the lower half of P2 shows what the port
  held at that edge, whatever else is done, and also if P2 is written. -/
theorem handshake_agrees {b : Board} (h : Reached b) (log : Log) :
    (b.expander.pending.isSome = true ↔ b.expander.prog = false) ∧
    (∀ value, progLevel value = b.expander.prog →
      portOut .prog value ⟨b, log⟩ = .ok () ⟨b, log⟩) ∧
    (b.expander.prog = true → ∀ (p : Pulse) (before during after : List Activity),
      (∀ a ∈ before ++ during ++ after, a.Aside) →
      Agree Strict (· = ·) (OnlyP2 p.operand) (p.drive before during after ⟨b, log⟩)
        (p.direct before during after ⟨b, log⟩)) ∧
    (b.expander.prog = true → ∀ p : Pulse, p.op = .read → ∀ before : List Activity,
      (∀ a ∈ before, a.Aside) → ∀ s, p.lower before ⟨b, log⟩ = .ok () s →
      ∀ during : List Activity, (∀ a ∈ during, a ≠ .reset ∧ ¬a.Writes .prog) →
      ∀ t, carryOut during s = .ok () t →
      ∃ byte, portIn .p2 t = .ok byte t ∧ byte &&& 0x0F = s.device.display.nibble p.port) := by
  have sound := h.sound
  refine ⟨?_, fun value hvalue => portOut_prog_same hvalue,
    fun high p before during after aside => ?_,
    fun high p read before hbefore s hs during hduring t ht => ?_⟩
  · rw [sound.pending]
    cases b.expander.prog <;> decide
  · exact p.sim_drive sound high
      (fun a ha => aside a (List.mem_append_left _ (List.mem_append_left _ ha)))
      (fun a ha => aside a (List.mem_append_left _ (List.mem_append_right _ ha)))
      (fun a ha => aside a (List.mem_append_right _ ha)) ⟨b, log⟩ ⟨b, log⟩ ⟨rfl, rfl⟩
  · have driven := p.readData_of_lower read high hbefore hs
    have kept := keeps_latch_carryOut hduring s () t ht
    have hdata : t.device.expander.readData = s.device.expander.readData :=
      congrArg (fun latch => latch.2.2) kept
    obtain ⟨byte, hread, hbyte⟩ := portIn_p2_and (hdata.trans driven)
    exact ⟨byte, hread, hbyte.trans (Display.nibble_and _ _)⟩

/-- The coprocessor writes a port. -/
def Activity.output (port : Port) (value : UInt8) : Activity :=
  .operation (.mcu (.output port.address value))

theorem Activity.writes_output_iff {port other : Port} {value : UInt8} :
    (Activity.output port value).Writes other ↔ port = other := by
  simp [output, Writes, Operation.Writes, Operation.written?, Port.ofAddress?_address]

theorem Activity.aside_output {port : Port} {value : UInt8} (hp2 : port ≠ .p2)
    (hprog : port ≠ .prog) : (Activity.output port value).Aside :=
  ⟨nofun, fun h => hp2 (writes_output_iff.1 h), fun h => hprog (writes_output_iff.1 h)⟩

/-- What a port holds after an operation, if that succeeds. -/
def nibbleAfter? (op : Op Board Unit) (port : NibblePort) (s : Observed Board) : Option UInt8 :=
  match op s with
  | .ok _ t => some (t.device.display.nibble port)
  | .error _ _ => none

/-- A pulse that works four bits into a port. -/
def orPulse : Pulse where
  op := .or
  port := .p5
  upper := 0x0A
  operand := 0xF5
  low := 0x00
  high := 0x01
  falls := by decide
  rises := by decide

/-- It agrees with a direct write while grids are selected, the port is written and the display
counts. If the port is written with 6 in between, it holds 7 afterwards, and with another operation
in its place 6, 5 or 4. A read of the port at power-on shows on P2, even when P2 is written. -/
theorem orPulse_agrees :
    (∀ log, Agree Strict (· = ·) (OnlyP2 0xF5)
      (orPulse.drive [.output .p1 0x03] [.output (.expander .p5) 0x06] [.operation .tick]
        ⟨powerOn .gin 20, log⟩)
      (orPulse.direct [.output .p1 0x03] [.output (.expander .p5) 0x06] [.operation .tick]
        ⟨powerOn .gin 20, log⟩)) ∧
    (∀ result ∈ [(PortOp.or, 7), (.read, 6), (.write, 5), (.and, 4)],
      nibbleAfter? (({ orPulse with op := result.1 } : Pulse).drive []
        [.output (.expander .p5) 0x06] []) .p5 ⟨powerOn .gin 20, .fresh⟩ = some result.2) ∧
    ∃ s t byte, ({ orPulse with op := .read } : Pulse).lower [] ⟨powerOn .gin 20, .fresh⟩ =
        .ok () s ∧
      carryOut [.output .p2 0x06] s = .ok () t ∧ portIn .p2 t = .ok byte t ∧
        byte &&& 0x0F = s.device.display.nibble .p5 := by
  have reached : Reached (powerOn .gin 20) := .powerOn _ _
  have aside : ∀ a ∈ [Activity.output .p1 0x03] ++ [Activity.output (.expander .p5) 0x06] ++
      [Activity.operation .tick], a.Aside :=
    List.forall_mem_cons.2 ⟨Activity.aside_output nofun nofun, List.forall_mem_cons.2
      ⟨Activity.aside_output nofun nofun, List.forall_mem_singleton.2
        ⟨nofun, nofun, nofun⟩⟩⟩
  have free : ∀ a ∈ [Activity.output .p2 0x06], a ≠ .reset ∧ ¬a.Writes .prog :=
    List.forall_mem_singleton.2 ⟨nofun, fun h => nomatch Activity.writes_output_iff.1 h⟩
  refine ⟨fun log => (handshake_agrees reached log).2.2.1 rfl orPulse _ _ _ aside,
    by decide +kernel, ?_⟩
  obtain ⟨byte, hread, hbyte⟩ := (handshake_agrees reached .fresh).2.2.2 rfl
    { orPulse with op := .read } rfl [] nofun _ rfl _ free _ rfl
  exact ⟨_, _, byte, rfl, rfl, hread, hbyte⟩

end Board

end CardComputer
