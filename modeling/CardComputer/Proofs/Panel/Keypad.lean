import CardComputer.Panel.Keypad

/-!
# The crossings of the keypad

No two keys sit at the same crossing (`Key.position_inj`), so pressing or releasing a key changes
what is held at its own crossing and nowhere else (`Keypad.isDown_setKey`). A row line reads low
exactly if a key is held at one of its crossings with the columns that are strobed
(`Keypad.testBit_rows`).
-/

namespace CardComputer

/-- A key can be told from its crossing. -/
theorem Key.find?_position (k : Key) :
    Key.all.find? (fun other => other.position == k.position) = some k := by
  cases k <;> rfl

/-- No two keys sit at the same crossing. -/
theorem Key.position_inj {k k' : Key} (h : k.position = k'.position) : k = k' := by
  have hk := k.find?_position
  rw [h, k'.find?_position] at hk
  exact (Option.some.inj hk).symm

/-- The bit of a key is that of its row. -/
theorem Key.testBit_rowMask (k : Key) (r : Fin 4) :
    k.rowMask.toNat.testBit r = decide (k.position.2 = r) := by
  have rows : ∀ row r : Fin 4,
      (1 <<< UInt8.ofNat row : UInt8).toNat.testBit r = decide (row = r) := by decide
  exact rows k.position.2 r

namespace Keypad

/-! ## Bits -/

theorem testBit_or (a b : UInt8) (n : Nat) :
    (a ||| b).toNat.testBit n = (a.toNat.testBit n || b.toNat.testBit n) := by
  rw [UInt8.toNat_or, Nat.testBit_or]

theorem testBit_and (a b : UInt8) (n : Nat) :
    (a &&& b).toNat.testBit n = (a.toNat.testBit n && b.toNat.testBit n) := by
  rw [UInt8.toNat_and, Nat.testBit_and]

theorem testBit_not {n : Nat} (h : n < 8) (a : UInt8) :
    (~~~a).toNat.testBit n = !a.toNat.testBit n := by
  show (~~~a).toBitVec.toNat.testBit n = !a.toBitVec.toNat.testBit n
  rw [BitVec.testBit_toNat, BitVec.testBit_toNat, UInt8.toBitVec_not, BitVec.getLsbD_not]
  simp [h]

/-- The lower half of a byte, moved to the upper half. -/
theorem testBit_shiftLeft (a : UInt8) (r : Fin 4) :
    (a <<< 4).toNat.testBit (4 + r) = a.toNat.testBit r := by
  show (a <<< 4).toBitVec.toNat.testBit (4 + r) = a.toBitVec.toNat.testBit r
  have hlt : 4 + r.val < 8 := by omega
  have hle : ¬4 + r.val < 4 := by omega
  rw [BitVec.testBit_toNat, BitVec.testBit_toNat, UInt8.toBitVec_shiftLeft]
  simp [hlt, hle, BitVec.getLsbD_eq_getElem, Nat.lt_of_add_left_lt hlt]

theorem testBit_foldl_or {α : Type} (f : α → UInt8) (l : List α) (start : UInt8) (n : Nat) :
    (l.foldl (fun sum a => sum ||| f a) start).toNat.testBit n =
      (start.toNat.testBit n || l.any fun a => (f a).toNat.testBit n) := by
  induction l generalizing start with
  | nil => simp
  | cons a l ih => rw [List.foldl_cons, ih, testBit_or, List.any_cons, Bool.or_assoc]

/-! ## Crossings -/

/-- Whether a key is held at the crossing of a column and a row. -/
def isDown (p : Keypad) (column : Fin 8) (row : Fin 4) : Bool :=
  (p.columns.get column).toNat.testBit row

theorem isDown_released (column : Fin 8) (row : Fin 4) : released.isDown column row = false := by
  show (Vector.replicate 8 (0 : UInt8))[column.val].toNat.testBit row = false
  simp

/-- The rows of a column after a key in it was pressed or released. -/
theorem testBit_changed (k : Key) (pressed : Bool) (rows : UInt8) (row : Fin 4) :
    (if pressed then rows ||| k.rowMask else rows &&& ~~~k.rowMask).toNat.testBit row =
      if k.position.2 = row then pressed else rows.toNat.testBit row := by
  have hrow : row.val < 8 := by omega
  cases pressed with
  | true =>
    rw [if_pos rfl, testBit_or, k.testBit_rowMask]
    by_cases h : k.position.2 = row <;> simp [h]
  | false =>
    rw [if_neg Bool.false_ne_true, testBit_and, testBit_not hrow, k.testBit_rowMask]
    by_cases h : k.position.2 = row <;> simp [h]

/-- Pressing or releasing a key changes what is held at its own crossing only. -/
theorem isDown_setKey (p : Keypad) (k : Key) (pressed : Bool) (column : Fin 8) (row : Fin 4) :
    (p.setKey k pressed).isDown column row =
      if k.position = (column, row) then pressed else p.isDown column row := by
  have hsame : k.position = (column, row) ↔ k.position.1 = column ∧ k.position.2 = row :=
    Prod.ext_iff
  have hget (columns : Vector UInt8 8) : columns.get column = columns[column.val] := rfl
  by_cases hcolumn : k.position.1 = column
  · subst hcolumn
    have hchanged := testBit_changed k pressed p.columns[k.position.1] row
    simpa [isDown, setKey, hsame, hget] using hchanged
  · have hne : k.position.1.val ≠ column.val := Fin.val_ne_of_ne hcolumn
    simp [isDown, setKey, hsame, hget, hcolumn, hne]

/-- A row line reads low exactly if a key is held at one of its crossings with the columns that are
strobed. -/
theorem testBit_rows (p : Keypad) (select : UInt8) (row : Fin 4) :
    (p.rows select).toNat.testBit row = false ↔
      ∃ column : Fin 8, SelectLines.isSet select column = true ∧ p.isDown column row = true := by
  have hrow : row.val < 8 := by omega
  have hidle : idleRows.toNat.testBit row = true := by
    revert row
    decide
  have hget (column : Fin 8) : p.columns.get column = p.columns[column.val] := rfl
  unfold rows
  rw [testBit_and, hidle, Bool.and_true, testBit_not hrow, testBit_foldl_or]
  simp [isDown, hget]

end Keypad

end CardComputer
