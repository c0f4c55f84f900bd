/-!
# Arithmetic faults

Counters and clocks of the machine are fixed-width words whose additions and subtractions are
checked: a result that does not fit is a `Fault`, never a wrapped word. The two `checked…` functions
are pinned down by `checkedAdd_eq_ok_iff` and `checkedSub_eq_ok_iff`, which state them over the
natural numbers.
-/

namespace CardComputer

/-- A reason for which the machine cannot go on. -/
inductive Fault where
  /-- A sum does not fit in its word. -/
  | addOverflow
  /-- A difference would be negative. -/
  | subOverflow
  /-- An index lies at or past the end of a sequence of `size` elements. -/
  | indexOutOfBounds (size index : Nat)
deriving DecidableEq

namespace Fault

/-- The text that reports a fault. -/
def message : Fault → String
  | addOverflow => "attempt to add with overflow"
  | subOverflow => "attempt to subtract with overflow"
  | indexOutOfBounds size index =>
    s!"index out of bounds: the len is {size} but the index is {index}"

end Fault

/-- The sum of two clock values, refused when it does not fit in 64 bits. -/
def checkedAdd (a b : UInt64) : Except Fault UInt64 :=
  if a.toNat + b.toNat < UInt64.size then .ok (a + b) else .error .addOverflow

/-- The difference of two bytes, refused when it is negative. -/
def checkedSub (a b : UInt8) : Except Fault UInt8 :=
  if b ≤ a then .ok (a - b) else .error .subOverflow

/-- A sum is accepted exactly if it is the sum of the natural numbers. -/
theorem checkedAdd_eq_ok_iff {a b c : UInt64} :
    checkedAdd a b = .ok c ↔ c.toNat = a.toNat + b.toNat := by
  unfold checkedAdd UInt64.size
  have hc := c.toNat_lt
  split
  · rename_i h
    constructor
    · intro h'
      cases h'
      rw [UInt64.toNat_add]
      omega
    · intro h'
      congr 1
      apply UInt64.toNat_inj.1
      rw [UInt64.toNat_add]
      omega
  · rename_i h
    constructor
    · intro h'
      cases h'
    · intro h'
      omega

/-- A sum is refused exactly if 64 bits do not suffice for it, and always for that reason. -/
theorem checkedAdd_eq_error_iff {a b : UInt64} {fault : Fault} :
    checkedAdd a b = .error fault ↔ fault = .addOverflow ∧ UInt64.size ≤ a.toNat + b.toNat := by
  unfold checkedAdd
  split <;> simp_all [eq_comm]

theorem exists_checkedAdd {a b : UInt64} (h : a.toNat + b.toNat < UInt64.size) :
    ∃ c, checkedAdd a b = .ok c :=
  ⟨a + b, if_pos h⟩

/-- A difference is accepted exactly if it is the difference of the natural numbers. -/
theorem checkedSub_eq_ok_iff {a b c : UInt8} :
    checkedSub a b = .ok c ↔ a.toNat = b.toNat + c.toNat := by
  unfold checkedSub
  have ha := a.toNat_lt
  have hb := b.toNat_lt
  have hc := c.toNat_lt
  split
  · rename_i h
    rw [UInt8.le_iff_toNat_le] at h
    constructor
    · intro h'
      cases h'
      rw [UInt8.toNat_sub_of_le _ _ (UInt8.le_iff_toNat_le.2 h)]
      omega
    · intro h'
      congr 1
      apply UInt8.toNat_inj.1
      rw [UInt8.toNat_sub_of_le _ _ (UInt8.le_iff_toNat_le.2 h)]
      omega
  · rename_i h
    rw [UInt8.le_iff_toNat_le] at h
    constructor
    · intro h'
      cases h'
    · intro h'
      omega

/-- The product of two 32-bit words fits in 64 bits. -/
theorem toNat_mul_toNat_lt (a b : UInt32) : a.toNat * b.toNat < UInt64.size := by
  have ha := a.toNat_lt
  have hb := b.toNat_lt
  have h : a.toNat * b.toNat ≤ (2 ^ 32 - 1) * (2 ^ 32 - 1) := Nat.mul_le_mul (by omega) (by omega)
  exact Nat.lt_of_le_of_lt h (by decide)

/-! ## The lesser and the greater of two clock values -/

theorem toNat_min (a b : UInt64) : (min a b).toNat = min a.toNat b.toNat := by
  have h : (min a b : UInt64) = if a ≤ b then a else b := rfl
  rw [h]
  split <;> rename_i h <;> rw [UInt64.le_iff_toNat_le] at h <;> omega

theorem toNat_max (a b : UInt64) : (max a b).toNat = max a.toNat b.toNat := by
  have h : (max a b : UInt64) = if a ≤ b then b else a := rfl
  rw [h]
  split <;> rename_i h <;> rw [UInt64.le_iff_toNat_le] at h <;> omega

end CardComputer
