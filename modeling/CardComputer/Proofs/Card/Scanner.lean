import CardComputer.Card.Scanner
import Mathlib.Algebra.Group.Nat.Defs
import Mathlib.Logic.Function.Iterate

/-!
# The half-bits of a swipe

After the start of a swipe the scanner shifts the half-bits of the card past its sensor, one with
each tick (`Scanner.iterate_tick_loaded`). The sensor sees the levels of the card one after the
other, and bright when they have passed (`Scanner.sense_iterate_tick`). The levels of a card decode
to its code (`Swipe.decode_levels`).
-/

namespace CardComputer

/-- What holds of the codes with the first 128 numbers holds of all codes. -/
theorem CardCode.forall_of_fin {P : CardCode → Prop}
    (h : ∀ n : Fin 128, P (truncate (UInt8.ofNat n))) (c : CardCode) : P c := by
  obtain ⟨value, hlt⟩ := c
  have hvalue : value.toNat < 128 := UInt8.lt_iff_toNat_lt.1 hlt
  have hcode : truncate (UInt8.ofNat value.toNat) = ⟨value, hlt⟩ := by
    rw [truncate, CardCode.mk.injEq, UInt8.ofNat_toNat, ← UInt8.toNat_inj, UInt8.toNat_mod]
    exact Nat.mod_eq_of_lt hvalue
  exact hcode ▸ h ⟨value.toNat, hvalue⟩

namespace Swipe

/-- The nine pairs and the half-bit before them take nineteen bits. The last half-bit is bright and
needs none. -/
theorem encode_lt {k : ℕ} (hk : 19 ≤ k) (c : CardCode) : (encode c).toNat < 2 ^ k := by
  have hlt : (encode c).toNat < 2 ^ 19 :=
    CardCode.forall_of_fin (P := fun c => (encode c).toNat < 2 ^ 19) (by decide +kernel) c
  exact Nat.lt_of_lt_of_le hlt (Nat.pow_le_pow_right Nat.two_pos hk)

/-- The levels of a card decode to its code. -/
theorem decode_levels (c : CardCode) : decode (levels c) = some c :=
  CardCode.forall_of_fin (P := fun c => decode (levels c) = some c) (by decide +kernel) c

/-- The levels of a card are the half-bits of its stream, and bright after the last one. -/
theorem getD_levels (c : CardCode) (k : ℕ) :
    (levels c).getD k true = !(encode c).toNat.testBit k := by
  by_cases hk : k < halfBits
  · simp [levels, hk]
  · -- The stream has no half-bits beyond those of the swipe.
    have hle : 19 ≤ k := Nat.le_of_succ_le (Nat.le_of_not_lt hk)
    rw [Nat.testBit_lt_two_pow (encode_lt hle c)]
    simp [levels, hk]

/-- Counted from any number on, the levels of a card are its levels. -/
theorem map_range'_levels (c : CardCode) (first : ℕ) :
    (List.range' first halfBits).map (fun k => (levels c).getD (k - first) true) = levels c := by
  rw [List.range'_eq_map_range, List.map_map]
  refine List.map_congr_left fun k _ => ?_
  rw [Function.comp_apply, Nat.add_sub_cancel_left, getD_levels]

end Swipe

namespace Scanner

/-- The scanner some half-bits after the start of a swipe. -/
theorem iterate_tick_loaded (c : CardCode) (k : ℕ) :
    tick^[k] (loaded c) = ⟨UInt32.ofNat ((Swipe.encode c).toNat >>> k),
      UInt8.ofNat (Swipe.halfBits - k), some c⟩ := by
  induction k with
  | zero => simp [loaded]
  | succ k ih =>
    rw [Function.iterate_succ_apply', ih, tick]
    by_cases hk : k < Swipe.halfBits
    · have hpos : UInt8.ofNat (Swipe.halfBits - k) ≠ 0 := by
        rw [Ne, ← UInt8.toNat_inj, UInt8.toNat_ofNat_of_lt']
        · exact Nat.sub_ne_zero_of_lt hk
        · unfold UInt8.size Swipe.halfBits
          omega
      rw [if_neg hpos, Scanner.mk.injEq]
      refine ⟨?_, ?_, rfl⟩
      · have hfits (j : ℕ) : (Swipe.encode c).toNat >>> j < UInt32.size :=
          Nat.lt_of_le_of_lt (Nat.shiftRight_le _ _) (Swipe.encode c).toNat_lt
        rw [← UInt32.toNat_inj, UInt32.toNat_shiftRight, UInt32.toNat_ofNat_of_lt' (hfits k),
          UInt32.toNat_ofNat_of_lt' (hfits (k + 1)), Nat.shiftRight_add]
        rfl
      · have hsucc : Swipe.halfBits - k = Swipe.halfBits - (k + 1) + 1 := by omega
        rw [hsucc, UInt8.ofNat_add]
        exact UInt8.add_sub_cancel _ _
    · have hdone : Swipe.halfBits - k = 0 ∧ Swipe.halfBits - (k + 1) = 0 := by omega
      -- Nothing is left of the stream.
      have hzero {j : ℕ} (hj : k ≤ j) : (Swipe.encode c).toNat >>> j = 0 := by
        have hle : 19 ≤ j := Nat.le_trans (Nat.le_of_succ_le (Nat.le_of_not_lt hk)) hj
        rw [Nat.shiftRight_eq_div_pow, Nat.div_eq_of_lt (Swipe.encode_lt hle c)]
      rw [hdone.1, hdone.2, hzero (Nat.le_refl k), hzero (Nat.le_succ k)]
      rfl

/-- The sensor sees the lowest bit of the stream. -/
theorem sense_eq (s : Scanner) : s.sense = !s.stream.toNat.testBit 0 := by
  have hbit : s.stream &&& 1 = 0 ↔ s.stream.toNat % 2 = 0 := by
    rw [← UInt32.toNat_inj, UInt32.toNat_and, UInt32.toNat_one, Nat.and_one_is_mod]
    rfl
  rw [Bool.eq_iff_iff, sense, beq_iff_eq, hbit, Nat.testBit_zero]
  simp

/-- The sensor sees the levels of the card, and bright when they have passed. -/
theorem sense_iterate_tick (c : CardCode) (k : ℕ) :
    sense (tick^[k] (loaded c)) = (Swipe.levels c).getD k true := by
  have hlt : (Swipe.encode c).toNat >>> k < UInt32.size :=
    Nat.lt_of_le_of_lt (Nat.shiftRight_le _ _) (Swipe.encode c).toNat_lt
  rw [Swipe.getD_levels, sense_eq, iterate_tick_loaded, UInt32.toNat_ofNat_of_lt' hlt,
    Nat.testBit_shiftRight, Nat.add_zero]

/-- Without a swipe nothing passes the sensor. -/
theorem tick_idle : tick idle = idle := rfl

end Scanner

end CardComputer
