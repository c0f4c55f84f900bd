import CardComputer.Config.Model

/-!
# Configurations

A configuration fixes the model, the master clock and the periods derived from it. Periods are given
in microseconds and used in master cycles. `Config.Valid` is what a machine needs to make progress:
every divider and every period is at least one cycle.
-/

namespace CardComputer

/-- The configuration of a machine. -/
structure Config where
  model : Model
  /-- Master cycles per second. -/
  masterClockHz : UInt32
  /-- Master cycles per cycle of the main unit. -/
  mainDivider : UInt32
  /-- Master cycles per cycle of the coprocessor. -/
  mcuDivider : UInt32
  /-- Microseconds per half-bit of a swipe. -/
  barcodeShiftUs : UInt32
  /-- Microseconds per display tick. -/
  displayTickUs : UInt32
  /-- Display ticks that a grid stays visible. -/
  decayWindowTicks : UInt32
deriving DecidableEq

namespace Config

/-- The usual configuration of a model. -/
def forModel (model : Model) : Config where
  model
  masterClockHz := 5000000
  mainDivider := 2
  mcuDivider := 1
  barcodeShiftUs := 2000
  displayTickUs := 1000
  decayWindowTicks := 20

/-- The usual configuration of the usual model. -/
def standard : Config := forModel .vbrc

/-- The master cycles in a number of microseconds, rounded down. A product that does not fit in 64
bits counts as the greatest that does. -/
def usToCycles (c : Config) (us : UInt64) : UInt64 :=
  UInt64.ofNat (min (us.toNat * c.masterClockHz.toNat) (UInt64.size - 1) / 1000000)

/-- Master cycles per half-bit of a swipe. -/
def barcodeShiftCycles (c : Config) : UInt64 := c.usToCycles c.barcodeShiftUs.toUInt64

/-- Master cycles per display tick. -/
def displayTickCycles (c : Config) : UInt64 := c.usToCycles c.displayTickUs.toUInt64

/-- Master cycles in a sixtieth of a second. -/
def frameCycles (c : Config) : UInt64 := c.masterClockHz.toUInt64 / 60

/-- What can be wrong with a configuration. -/
inductive Problem where
  | noClock
  | noDivider
  | noWindow
  | shortBarcodeShift
  | shortDisplayTick
deriving DecidableEq

/-- The report of a problem. -/
def Problem.message (p : Problem) : String :=
  "Invalid configuration: " ++
    match p with
    | noClock => "master_clock_hz must be non-zero"
    | noDivider => "clock dividers must be non-zero"
    | noWindow => "decay_window_ticks must be non-zero"
    | shortBarcodeShift => "barcode_shift_us is shorter than one master cycle"
    | shortDisplayTick => "display_tick_us is shorter than one master cycle"

/-- The first problem of a configuration. -/
def problem? (c : Config) : Option Problem :=
  if c.masterClockHz = 0 then some .noClock
  else if c.mainDivider = 0 ∨ c.mcuDivider = 0 then some .noDivider
  else if c.decayWindowTicks = 0 then some .noWindow
  else if c.barcodeShiftCycles = 0 then some .shortBarcodeShift
  else if c.displayTickCycles = 0 then some .shortDisplayTick
  else none

/-- A configuration without problems. -/
def Valid (c : Config) : Prop := c.problem? = none

instance (c : Config) : Decidable c.Valid :=
  inferInstanceAs (Decidable (c.problem? = none))

/-- A configuration is valid exactly if its clock, dividers, window and periods are not zero. -/
theorem valid_iff {c : Config} : c.Valid ↔
    c.masterClockHz ≠ 0 ∧ c.mainDivider ≠ 0 ∧ c.mcuDivider ≠ 0 ∧ c.decayWindowTicks ≠ 0 ∧
      c.barcodeShiftCycles ≠ 0 ∧ c.displayTickCycles ≠ 0 := by
  unfold Valid problem?
  grind

theorem valid_standard : standard.Valid := by decide

/-- How a configuration is read: every field may be left out. -/
def record : Json.Record Config :=
  (Json.Record.of mk).fieldOr "model" standard.model
    |>.fieldOr "master_clock_hz" standard.masterClockHz
    |>.fieldOr "main_cpu_divider" standard.mainDivider
    |>.fieldOr "mcu_divider" standard.mcuDivider
    |>.fieldOr "barcode_shift_us" standard.barcodeShiftUs
    |>.fieldOr "display_tick_us" standard.displayTickUs
    |>.fieldOr "decay_window_ticks" standard.decayWindowTicks

/-- The name of the structure in messages. -/
def typeName : String := "MachineConfig"

instance : Json.Stored Config where
  encode c := .object [
    ("model", Json.encode c.model),
    ("master_clock_hz", Json.encode c.masterClockHz),
    ("main_cpu_divider", Json.encode c.mainDivider),
    ("mcu_divider", Json.encode c.mcuDivider),
    ("barcode_shift_us", Json.encode c.barcodeShiftUs),
    ("display_tick_us", Json.encode c.displayTickUs),
    ("decay_window_ticks", Json.encode c.decayWindowTicks)]
  decode := record.decode typeName

instance : Json.LawfulStored Config where
  decode_encode _ := Json.Record.decode_object (by simp [record])

end Config

end CardComputer
