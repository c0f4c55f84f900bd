import CardComputer.Config.Basic
import CardComputer.Fault
import Mathlib.Algebra.Group.Nat.Defs

/-!
# Cycles

A number of microseconds becomes one of master cycles by a product that is cut off at 64 bits and a
quotient that is rounded down. Below the cut this is exact, and the periods of a configuration are
always below it (`Config.toNat_usToCycles_of_lt`, `Config.toNat_usToCycles_period`). Above it the
cycles may be too few but are never too many, and more microseconds or a faster clock never give
fewer cycles, on whichever side of the cut (`Config.usToCycles_le`, `Config.usToCycles_mono`). So a
configuration is valid exactly if over the natural numbers neither of its periods is shorter than a
cycle (`Config.valid_iff_le_mul_clock`).
-/

namespace CardComputer.Config

/-! ## Microseconds -/

/-- The cycles of some microseconds, as a number. -/
theorem toNat_usToCycles (c : Config) (us : UInt64) : (c.usToCycles us).toNat =
    min (us.toNat * c.masterClockHz.toNat) (2 ^ 64 - 1) / 10 ^ 6 := by
  -- The product that was cut off fits, and so does its quotient.
  have fits : min (us.toNat * c.masterClockHz.toNat) (UInt64.size - 1) / 1000000 <
      UInt64.size := by
    unfold UInt64.size
    omega
  exact UInt64.toNat_ofNat_of_lt' fits

/-- As long as the product fits, nothing is cut off. -/
theorem toNat_usToCycles_of_lt {c : Config} {us : UInt64}
    (h : us.toNat * c.masterClockHz.toNat < 2 ^ 64) :
    (c.usToCycles us).toNat = us.toNat * c.masterClockHz.toNat / 10 ^ 6 := by
  rw [toNat_usToCycles, Nat.min_eq_left (by omega)]

/-- There are never too many cycles, whether something is cut off or not. -/
theorem usToCycles_le (c : Config) (us : UInt64) :
    (c.usToCycles us).toNat ≤ us.toNat * c.masterClockHz.toNat / 10 ^ 6 := by
  rw [toNat_usToCycles]
  exact Nat.div_le_div_right (Nat.min_le_left _ _)

example : standard.usToCycles 0xFFFFFFFFFFFFFFFF = 0xFFFFFFFFFFFFFFFF / 1000000 := by decide

/-- More microseconds have no fewer cycles, and no fewer with a faster clock. -/
theorem usToCycles_mono {c c' : Config} {us us' : UInt64}
    (clock : c.masterClockHz ≤ c'.masterClockHz) (longer : us ≤ us') :
    c.usToCycles us ≤ c'.usToCycles us' := by
  rw [UInt32.le_iff_toNat_le] at clock
  rw [UInt64.le_iff_toNat_le] at longer ⊢
  have product : us.toNat * c.masterClockHz.toNat ≤ us'.toNat * c'.masterClockHz.toNat :=
    Nat.mul_le_mul longer clock
  rw [toNat_usToCycles, toNat_usToCycles]
  -- The greater product is cut off if the lesser one is.
  apply Nat.div_le_div_right
  omega

/-! ## Periods -/

/-- The product of a period and the clock fits. -/
theorem period_mul_lt (c : Config) (us : UInt32) :
    us.toUInt64.toNat * c.masterClockHz.toNat < 2 ^ 64 := by
  rw [UInt32.toNat_toUInt64]
  exact toNat_mul_toNat_lt us c.masterClockHz

/-- The cycles of a period are exact. -/
theorem toNat_usToCycles_period (c : Config) (us : UInt32) :
    (c.usToCycles us.toUInt64).toNat = us.toNat * c.masterClockHz.toNat / 10 ^ 6 := by
  rw [toNat_usToCycles_of_lt (c.period_mul_lt us), UInt32.toNat_toUInt64]

/-- A period has a cycle exactly if it is not shorter than one. -/
theorem usToCycles_period_ne_zero {c : Config} {us : UInt32} :
    c.usToCycles us.toUInt64 ≠ 0 ↔ 10 ^ 6 ≤ us.toNat * c.masterClockHz.toNat := by
  -- Without a cut a quotient is only zero if the product is less than the divisor.
  rw [ne_eq, ← UInt64.toNat_inj, toNat_usToCycles_period, UInt64.toNat_zero]
  omega

/-- A configuration is valid exactly if its clock, dividers and window are not zero and its periods
are not shorter than a cycle. -/
theorem valid_iff_le_mul_clock {c : Config} : c.Valid ↔
    c.masterClockHz ≠ 0 ∧ c.mainDivider ≠ 0 ∧ c.mcuDivider ≠ 0 ∧ c.decayWindowTicks ≠ 0 ∧
      10 ^ 6 ≤ c.barcodeShiftUs.toNat * c.masterClockHz.toNat ∧
      10 ^ 6 ≤ c.displayTickUs.toNat * c.masterClockHz.toNat := by
  rw [valid_iff, barcodeShiftCycles, displayTickCycles, usToCycles_period_ne_zero,
    usToCycles_period_ne_zero]

end CardComputer.Config
