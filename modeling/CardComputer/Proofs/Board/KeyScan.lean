import CardComputer.Proofs.Board.Handshake
import CardComputer.Proofs.Board.Picture
import CardComputer.Proofs.Panel.Keypad

/-!
# Scanning the keypad

The coprocessor strobes columns of the keypad through P1 and reads the rows from the upper half of
P2, whose lower half it shares with the expander. Which keys are held (`Board.isHeld`) and what the
expander drives (`Board.answer?`) can be read off the history of the board, and every operation
keeps the board in agreement with it (`Board.Scanned.perform`). So what is read from P2 is known
(`Board.keypad_scan`), and each half depends on its own part of the history only
(`Board.lower_filter`, `Board.isHeld_filter`).
-/

namespace CardComputer

open Op

namespace Board

/-! ## What a history tells -/

namespace Operation

/-- The key that is pressed or released in an operation, and which of the two it is. -/
def keyed? : Operation → Option (Key × Bool)
  | key k pressed => some (k, pressed)
  | _ => none

/-- The operation presses or releases a key. -/
def concerns (k : Key) (op : Operation) : Bool := op.keyed?.any fun keyed => keyed.1 = k

/-- The operation writes P2, PROG or a port of the expander. -/
def reachesExpander (op : Operation) : Bool :=
  match op.written? with
  | some (.p2, _) | some (.prog, _) | some (.expander _, _) => true
  | _ => false

/-- The operation presses or releases a key or strobes columns. -/
def reachesKeypad (op : Operation) : Bool :=
  match op.keyed?, op.written? with
  | some _, _ | _, some (.p1, _) => true
  | _, _ => false

end Operation

/-- Whether a key is held: it was pressed, and not released since. -/
def isHeld (k : Key) : List Operation → Bool
  | [] => false
  | op :: before =>
    match op.keyed? with
    | some (other, pressed) => if other = k then pressed else isHeld k before
    | none => isHeld k before

/-- What the expander drives onto P2: a port that was asked for when PROG fell, until PROG rises. -/
def answer? : List Operation → Option UInt8
  | [] => none
  | op :: before =>
    match op.written? with
    | some (.prog, value) =>
      if progLevel value = strobe before then answer? before
      else if progLevel value then none
      else if PortOp.ofBits (p2 before >>> 2) = .read then
        some (held before (NibblePort.ofBits (p2 before)))
      else answer? before
    | _ => answer? before

/-- The lower half of P2: what the expander drives, or what was written. -/
def lower (history : List Operation) : UInt8 := (answer? history).getD (p2 history) &&& 0x0F

/-- The byte that strobes one column. -/
def oneHot (column : Fin 8) : UInt8 := 1 <<< UInt8.ofNat column

theorem isSet_oneHot (column other : Fin 8) :
    SelectLines.isSet (oneHot column) other = decide (other = column) := by
  revert column other
  decide

section Cons

variable {op : Operation} {before : List Operation}

theorem isHeld_of_concerns {k : Key} {pressed : Bool} (h : op.keyed? = some (k, pressed)) :
    isHeld k (op :: before) = pressed := by
  simp [isHeld, h]

/-- Only its own events change whether a key is held. -/
theorem isHeld_of_not_concerns {k : Key} (h : op.concerns k = false) :
    isHeld k (op :: before) = isHeld k before := by
  rw [isHeld]
  split
  · rename_i other pressed hop
    have hne : other ≠ k := by simpa [Operation.concerns, hop] using h
    rw [if_neg hne]
  · rfl

theorem answer?_of_not_writes (h : ¬op.Writes .prog) : answer? (op :: before) = answer? before := by
  rw [answer?]
  split
  · rename_i value hop
    exact absurd ⟨value, hop⟩ h
  · rfl

end Cons

/-! ## Agreement with the board -/

/-- The keypad and what the expander drives agree with a history. -/
structure Scanned (history : List Operation) (b : Board) : Prop where
  answer : b.expander.readData = answer? history
  keys : ∀ column row, b.keypad.isDown column row = true ↔
    ∃ k : Key, k.position = (column, row) ∧ isHeld k history = true

theorem scanned_powerOn (model : Model) (window : UInt64) : Scanned [] (powerOn model window) where
  answer := rfl
  keys column row := by simp [powerOn, Keypad.isDown_released, isHeld]

section Scanned

variable {op : Operation} {before : List Operation} {b b' : Board}

/-- An operation without a key event and a change of PROG. -/
theorem Scanned.of_silent (h : Scanned before b) (silent : op.keyed? = none)
    (prog : ¬op.Writes .prog) (keypad : b'.keypad = b.keypad)
    (readData : b'.expander.readData = b.expander.readData) : Scanned (op :: before) b' where
  answer := by rw [readData, h.answer, answer?_of_not_writes prog]
  keys column row := by
    rw [keypad, h.keys]
    simp [isHeld, silent]

/-- A key is pressed or released. -/
theorem Scanned.setKey (h : Scanned before b) (k : Key) (pressed : Bool) :
    Scanned (.key k pressed :: before) (b.setKey k pressed) where
  answer := by
    rw [answer?_of_not_writes (Operation.not_writes_of_silent rfl _)]
    exact h.answer
  keys column row := by
    show (b.keypad.setKey k pressed).isDown column row = true ↔ _
    rw [Keypad.isDown_setKey]
    -- At the crossing of the key there is no other key.
    by_cases hk : k.position = (column, row)
    · rw [if_pos hk]
      constructor
      · exact fun hpressed => ⟨k, hk, (isHeld_of_concerns rfl).trans hpressed⟩
      · rintro ⟨k', hk', hheld⟩
        obtain rfl := Key.position_inj (hk.trans hk'.symm)
        exact (isHeld_of_concerns rfl).symm.trans hheld
    · rw [if_neg hk, h.keys]
      refine exists_congr fun k' => and_congr_right fun hk' => ?_
      have hne : k ≠ k' := by
        rintro rfl
        exact hk hk'
      rw [isHeld_of_not_concerns (by simpa [Operation.concerns, Operation.keyed?] using hne)]

/-- What the expander drives after PROG was driven. -/
theorem Reflects.readData_prog {value : UInt8} (h : Reflects before b)
    (answer : b.expander.readData = answer? before)
    (written : op.written? = some (.prog, value)) :
    (b.afterPortOut value .prog).expander.readData = answer? (op :: before) := by
  have hlevel := h.strobe
  rw [answer?, written]
  dsimp only
  by_cases same : progLevel value = Board.strobe before
  · rw [if_pos same, afterPortOut_prog_of_eq (hlevel.trans same.symm), answer]
  · rw [if_neg same]
    cases high : Board.strobe before with
    | true =>
      have low : progLevel value = false := by simpa [high] using same
      rw [high] at hlevel
      rw [afterPortOut_prog_fall hlevel low, low, if_neg Bool.false_ne_true]
      simp only [Expander.fall, h.p2, h.held, answer]
    | false =>
      have rises : progLevel value = true := by simpa [high] using same
      rw [high] at hlevel
      rw [afterPortOut_prog_rise hlevel rises, rises, if_pos rfl]
      cases b.expander.portWrite? b.display with
      | none => rfl
      | some w =>
        dsimp only
        rw [expander_nibbleShown]
        rfl

/-- What the expander drives after a port was written. -/
theorem Reflects.readData_afterPortOut {port : Port} {value : UInt8} (h : Reflects before b)
    (answer : b.expander.readData = answer? before)
    (written : op.written? = some (port, value)) :
    (b.afterPortOut value port).expander.readData = answer? (op :: before) := by
  by_cases hprog : port = .prog
  · subst hprog
    exact h.readData_prog answer written
  · rw [answer?_of_not_writes (Operation.not_writes_of_ne written hprog), ← answer]
    cases port with
    | prog => exact absurd rfl hprog
    | expander nibble => exact congrArg _ (expander_nibbleShown nibble _)
    | _ => rfl

/-- An operation keeps the agreement. -/
theorem Scanned.perform {s s' : Observed Board} (h : Scanned before s.device)
    (reflects : Reflects before s.device) (hop : op.perform s = .ok () s') :
    Scanned (op :: before) s'.device := by
  cases op with
  | mcu a =>
    obtain ⟨read, t, ht, hop⟩ := bind_eq_ok.1 hop
    obtain ⟨-, rfl⟩ := pure_eq_ok.1 hop
    rw [((does_perform_mcuBus a).of_ok ht).2]
    have keypad : (s.device.afterAccess a).2.keypad = s.device.keypad :=
      congrArg Remote.keypad (remote_afterAccess s.device a)
    cases a with
    | output address value =>
      cases hport : Port.ofAddress? address with
      | none =>
        have silent : (Operation.mcu (.output address value)).written? = none := by
          simp [Operation.written?, hport]
        refine h.of_silent rfl (Operation.not_writes_of_silent silent _) keypad ?_
        simp [afterAccess, hport]
      | some port =>
        have written : (Operation.mcu (.output address value)).written? = some (port, value) := by
          simp [Operation.written?, hport]
        refine ⟨?_, fun column row => ?_⟩
        · have hanswer := reflects.readData_afterPortOut h.answer written
          simpa [afterAccess, hport] using hanswer
        · rw [keypad]
          exact h.keys column row
    | input address =>
      obtain ⟨mailbox, hb⟩ := afterAccess_input s.device address
      rw [hb]
      exact h.of_silent rfl (Operation.not_writes_of_silent rfl _) rfl rfl
    | _ => exact h.of_silent rfl (Operation.not_writes_of_silent rfl _) rfl rfl
  | main a =>
    obtain ⟨read, t, ht, hop⟩ := bind_eq_ok.1 hop
    obtain ⟨-, rfl⟩ := pure_eq_ok.1 hop
    have silent : ¬(Operation.main a).Writes .prog := Operation.not_writes_of_silent rfl _
    rcases perform_mainBus ht with ⟨-, hb⟩ | ⟨word, -, ⟨-, hb⟩ | ⟨-, generation, -, hb⟩⟩
    · rw [hb]
      exact h.of_silent rfl silent rfl rfl
    · rw [hb]
      exact h.of_silent rfl silent rfl rfl
    · rw [hb]
      exact h.of_silent rfl silent rfl rfl
  | key k pressed =>
    obtain rfl := update_eq_ok.1 hop
    exact h.setKey k pressed
  | tick =>
    change onDisplay Display.tick s = _ at hop
    obtain ⟨t, ht, rfl⟩ := within_eq_ok.1 hop
    exact h.of_silent rfl (Operation.not_writes_of_silent rfl _) rfl rfl

end Scanned

/-- A board with a window of no ticks is one with a window of one tick. -/
theorem exists_window (model : Model) (window : UInt64) :
    ∃ window', 1 ≤ window' ∧ powerOn model window = powerOn model window' := by
  by_cases hw : window = 0
  · exact ⟨1, by decide, by rw [hw]; rfl⟩
  · refine ⟨window, UInt64.le_iff_toNat_le.2 ?_, rfl⟩
    have hpos : window.toNat ≠ 0 := fun h => hw (UInt64.toNat_inj.1 h)
    exact Nat.one_le_iff_ne_zero.2 hpos

/-- The board after a history agrees with it. -/
theorem scanned_of_play {model : Model} {window : UInt64} {history : List Operation} {log : Log}
    {s : Observed Board} (h : play history ⟨powerOn model window, log⟩ = .ok () s) :
    Reflects history s.device ∧ Scanned history s.device := by
  obtain ⟨window', hw, heq⟩ := exists_window model window
  rw [heq] at h
  induction history generalizing s with
  | nil =>
    obtain ⟨-, rfl⟩ := pure_eq_ok.1 h
    exact ⟨reflects_powerOn model window', scanned_powerOn model window'⟩
  | cons op before ih =>
    have hreflects := (pictured_of_play hw h).reflects
    obtain ⟨_, t, ht, hop⟩ := bind_eq_ok.1 h
    obtain ⟨hbefore, hscanned⟩ := ih ht
    exact ⟨hreflects, hscanned.perform hbefore hop⟩

/-! ## Each half has its own part of the history -/

section Filter

variable {keep : Operation → Bool}

theorem lastWritten_filter {port : Port} (h : ∀ op : Operation, op.Writes port → keep op = true)
    (initial : UInt8) (history : List Operation) :
    lastWritten port initial (history.filter keep) = lastWritten port initial history := by
  induction history with
  | nil => rfl
  | cons op before ih =>
    by_cases hop : keep op = true
    · rw [List.filter_cons_of_pos hop, lastWritten, lastWritten, ih]
    · have hw : ¬op.Writes port := fun hw => hop (h op hw)
      rw [List.filter_cons_of_neg hop, ih, lastWritten_of_not_writes hw]

/-- Whether a key is held is a matter of its own events. -/
theorem isHeld_filter {k : Key} (h : ∀ op : Operation, op.concerns k = true → keep op = true)
    (history : List Operation) : isHeld k (history.filter keep) = isHeld k history := by
  induction history with
  | nil => rfl
  | cons op before ih =>
    by_cases hop : keep op = true
    · rw [List.filter_cons_of_pos hop, isHeld, isHeld, ih]
    · have hk : op.concerns k = false := by
        rw [← Bool.not_eq_true]
        exact fun hk => hop (h op hk)
      rw [List.filter_cons_of_neg hop, ih, isHeld_of_not_concerns hk]

/-- The strobed columns are a matter of what reaches the keypad. -/
theorem select_filter (history : List Operation) :
    select (history.filter Operation.reachesKeypad) = select history := by
  refine lastWritten_filter ?_ 0 history
  rintro op ⟨value, hw⟩
  cases hk : op.keyed? <;> simp [Operation.reachesKeypad, hw, hk]

/-- So is whether a key is held. -/
theorem isHeld_filter_reachesKeypad (k : Key) (history : List Operation) :
    isHeld k (history.filter Operation.reachesKeypad) = isHeld k history := by
  refine isHeld_filter (fun op hop => ?_) history
  obtain ⟨keyed, hk, -⟩ := (Option.any_eq_true _ _).1 hop
  simp [Operation.reachesKeypad, hk]

theorem reachesExpander_of_writes {op : Operation} {port : Port} (h : op.Writes port)
    (hport : port = .p2 ∨ port = .prog ∨ ∃ nibble, port = .expander nibble) :
    op.reachesExpander = true := by
  obtain ⟨value, hw⟩ := h
  obtain rfl | rfl | ⟨nibble, rfl⟩ := hport <;> simp [Operation.reachesExpander, hw]

theorem p2_filter (history : List Operation) :
    p2 (history.filter Operation.reachesExpander) = p2 history := by
  unfold p2
  rw [lastWritten_filter fun op hw => reachesExpander_of_writes hw (.inl rfl)]

theorem strobe_filter (history : List Operation) :
    strobe (history.filter Operation.reachesExpander) = strobe history := by
  unfold strobe
  rw [lastWritten_filter fun op hw => reachesExpander_of_writes hw (.inr (.inl rfl))]

theorem latched_filter (history : List Operation) :
    latched (history.filter Operation.reachesExpander) = latched history := by
  induction history with
  | nil => rfl
  | cons op before ih =>
    by_cases hop : op.reachesExpander = true
    · rw [List.filter_cons_of_pos hop, latched, latched, ih, strobe_filter, p2_filter]
    · rw [List.filter_cons_of_neg hop, ih,
        latched_of_not_writes fun hw => hop (reachesExpander_of_writes hw (.inr (.inl rfl)))]

theorem held_filter (history : List Operation) :
    Board.held (history.filter Operation.reachesExpander) = Board.held history := by
  induction history with
  | nil => rfl
  | cons op before ih =>
    by_cases hop : op.reachesExpander = true
    · have hchange : change? op (before.filter Operation.reachesExpander) (Board.held before) =
          change? op before (Board.held before) := by
        unfold change?
        rw [strobe_filter, latched_filter, p2_filter]
      funext port
      rw [List.filter_cons_of_pos hop, held, held, ih, hchange]
    · rw [List.filter_cons_of_neg hop, ih,
        held_of_not_writes (fun hw => hop (reachesExpander_of_writes hw (.inr (.inl rfl))))
          fun _ hw => hop (reachesExpander_of_writes hw (.inr (.inr ⟨_, rfl⟩)))]

theorem answer?_filter (history : List Operation) :
    answer? (history.filter Operation.reachesExpander) = answer? history := by
  induction history with
  | nil => rfl
  | cons op before ih =>
    by_cases hop : op.reachesExpander = true
    · rw [List.filter_cons_of_pos hop, answer?, answer?, ih, strobe_filter, p2_filter, held_filter]
    · rw [List.filter_cons_of_neg hop, ih,
        answer?_of_not_writes fun hw => hop (reachesExpander_of_writes hw (.inr (.inl rfl)))]

/-- The lower half of P2 is a matter of what reaches the expander. -/
theorem lower_filter (history : List Operation) :
    lower (history.filter Operation.reachesExpander) = lower history := by
  rw [lower, lower, answer?_filter, p2_filter]

end Filter

/-! ## Reading P2 -/

/-- A row line is read in the upper half of P2. -/
theorem testBit_portLevel_p2 (b : Board) (row : Fin 4) :
    (b.portLevel .p2).toNat.testBit (4 + row) =
      (b.keypad.rows b.lines.select).toNat.testBit row := by
  have hlower : (0x0F : UInt8).toNat.testBit (4 + row) = false := by
    revert row
    decide
  show (b.expander.readP2 ||| b.keypad.rows b.lines.select <<< 4).toNat.testBit (4 + row) = _
  unfold Expander.readP2
  rw [Keypad.testBit_or, Keypad.testBit_and, hlower, Bool.and_false, Bool.false_or,
    Keypad.testBit_shiftLeft]

/-- The lower half of P2 is what the expander shows there. -/
theorem portLevel_p2_and (b : Board) : b.portLevel .p2 &&& 0x0F = b.expander.readP2 := by
  show (b.expander.readP2 ||| b.keypad.rows b.lines.select <<< 4) &&& 0x0F = _
  rw [Mailbox.or_and_right, shiftLeft_and, UInt8.or_zero, Expander.readP2, UInt8.and_assoc,
    UInt8.and_self]

section Read

variable {history : List Operation} {b : Board}

/-- A row line reads low exactly if a key in its row is held whose column is strobed. -/
theorem Scanned.testBit_rows (h : Scanned history b) (select : UInt8) (row : Fin 4) :
    (b.keypad.rows select).toNat.testBit row = false ↔ ∃ k : Key, k.position.2 = row ∧
      SelectLines.isSet select k.position.1 = true ∧ isHeld k history = true := by
  rw [Keypad.testBit_rows]
  constructor
  · rintro ⟨column, hset, hdown⟩
    obtain ⟨k, hk, hheld⟩ := (h.keys column row).1 hdown
    exact ⟨k, congrArg Prod.snd hk, by rw [hk]; exact hset, hheld⟩
  · rintro ⟨k, rfl, hset, hheld⟩
    exact ⟨k.position.1, hset, (h.keys _ _).2 ⟨k, rfl, hheld⟩⟩

/-- With only its column strobed the row line of a key tells whether it is held. -/
theorem Scanned.testBit_rows_oneHot (h : Scanned history b) (k : Key) :
    (b.keypad.rows (oneHot k.position.1)).toNat.testBit k.position.2 = !isHeld k history := by
  have hrows := h.testBit_rows (oneHot k.position.1) k.position.2
  by_cases hheld : isHeld k history = true
  · rw [hheld]
    exact hrows.2 ⟨k, rfl, by rw [isSet_oneHot, decide_eq_true rfl], hheld⟩
  · rw [Bool.eq_false_iff.2 hheld, Bool.not_false, ← Bool.not_eq_false]
    intro hlow
    -- No other key sits in this row of the column.
    obtain ⟨k', hrow, hset, hheld'⟩ := hrows.1 hlow
    rw [isSet_oneHot] at hset
    obtain rfl := Key.position_inj (Prod.ext (of_decide_eq_true hset) hrow)
    exact hheld hheld'

/-- What is read from P2 after a history. -/
theorem Scanned.p2_rows (h : Scanned history b) (reflects : Reflects history b) (row : Fin 4) :
    (b.portLevel .p2).toNat.testBit (4 + row) = false ↔ ∃ k : Key, k.position.2 = row ∧
      SelectLines.isSet (select history) k.position.1 = true ∧ isHeld k history = true := by
  rw [testBit_portLevel_p2, h.testBit_rows, reflects.select]

theorem Scanned.p2_lower (h : Scanned history b) (reflects : Reflects history b) :
    b.portLevel .p2 &&& 0x0F = lower history := by
  rw [portLevel_p2_and, Expander.readP2, h.answer, reflects.p2, lower]

theorem Scanned.p2_oneHot (h : Scanned history b) (reflects : Reflects history b) {k : Key}
    (strobed : select history = oneHot k.position.1) :
    (b.portLevel .p2).toNat.testBit (4 + k.position.2) = !isHeld k history := by
  rw [testBit_portLevel_p2, reflects.select, strobed, h.testBit_rows_oneHot]

end Read

/-- Strobes columns one after the other, and reads P2 at each. -/
def poll : List (Fin 8) → Op Board (List UInt8)
  | [] => return []
  | column :: columns => do
    portOut .p1 (oneHot column)
    let byte ← portIn .p2
    let bytes ← poll columns
    return byte :: bytes

theorem does_poll (columns : List (Fin 8)) : Does (poll columns) fun b =>
    (columns.map fun column => { b with lines := ⟨oneHot column⟩ }.portLevel .p2,
      columns.foldl (fun b column => b.afterPortOut (oneHot column) .p1) b) := by
  induction columns with
  | nil => exact does_pure []
  | cons column columns ih =>
    exact does_bind (does_portOut .p1 _) fun _ => does_bind (does_portIn .p2) fun byte =>
      does_bind ih fun bytes => does_pure (byte :: bytes)

/-- Whether the byte that was read with the column of a key strobed shows the key as held. -/
def showsKey (bytes : List UInt8) (k : Key) : Bool :=
  (bytes[k.position.1.val]?).any fun byte => !byte.toNat.testBit (4 + k.position.2)

/-- A poll of all columns shows exactly the held keys. -/
theorem Scanned.exists_poll {history : List Operation} {s : Observed Board}
    (h : Scanned history s.device) : ∃ bytes s', poll (List.finRange 8) s = .ok bytes s' ∧
      ∀ k, showsKey bytes k = isHeld k history := by
  obtain ⟨log, hpoll⟩ := does_poll (List.finRange 8) s
  refine ⟨_, _, hpoll, fun k => ?_⟩
  have hrow := testBit_portLevel_p2 { s.device with lines := ⟨oneHot k.position.1⟩ } k.position.2
  rw [h.testBit_rows_oneHot k] at hrow
  simp [showsKey, hrow]

/-- The keypad shows exactly the held keys of the strobed columns. Every history with fewer display
ticks than can be counted is one of a fresh board. P2 can be read after it, which changes nothing. A
row line reads low exactly if a key in the row was pressed and not released since and the byte that
was written to P1 last strobes its column; the lower half is that of the expander. Polling the eight
columns shows of each of the keys whether it is held.

What is read after another history has the same lower half if the same was written to P2, PROG and
the ports of the expander, and the same row lines if the same was written to P1 and there were the
same key events, whatever else was written or read. With one column strobed the row line of a key in
it is the same if the events of this key are. -/
theorem keypad_scan (model : Model) (window : UInt64) (log : Log) (history : List Operation) :
    (ticks history < UInt64.size → ∃ s, play history ⟨powerOn model window, log⟩ = .ok () s) ∧
    ∀ s, play history ⟨powerOn model window, log⟩ = .ok () s →
      ∃ byte, portIn .p2 s = .ok byte s ∧
        (∀ row : Fin 4, byte.toNat.testBit (4 + row) = false ↔ ∃ k : Key, k.position.2 = row ∧
          SelectLines.isSet (select history) k.position.1 = true ∧ isHeld k history = true) ∧
        byte &&& 0x0F = lower history ∧
        (∃ bytes s', poll (List.finRange 8) s = .ok bytes s' ∧
          ∀ k, showsKey bytes k = isHeld k history) ∧
        ∀ model' window' log' history' s' byte',
          play history' ⟨powerOn model' window', log'⟩ = .ok () s' →
          portIn .p2 s' = .ok byte' s' →
          (history'.filter Operation.reachesExpander = history.filter Operation.reachesExpander →
            byte' &&& 0x0F = byte &&& 0x0F) ∧
          (history'.filter Operation.reachesKeypad = history.filter Operation.reachesKeypad →
            ∀ row : Fin 4, byte'.toNat.testBit (4 + row) = byte.toNat.testBit (4 + row)) ∧
          ∀ k : Key, select history' = oneHot k.position.1 → select history = oneHot k.position.1 →
            history'.filter (Operation.concerns k) = history.filter (Operation.concerns k) →
            byte'.toNat.testBit (4 + k.position.2) = byte.toNat.testBit (4 + k.position.2) := by
  refine ⟨fun hticks => ?_, fun s hs => ?_⟩
  · obtain ⟨window', hw, heq⟩ := exists_window model window
    rw [heq]
    exact exists_play model hw hticks log
  · obtain ⟨reflects, scanned⟩ := scanned_of_play hs
    refine ⟨s.device.portLevel .p2, rfl, scanned.p2_rows reflects, scanned.p2_lower reflects,
      scanned.exists_poll, ?_⟩
    intro model' window' log' history' s' byte' hs' hread
    obtain ⟨reflects', scanned'⟩ := scanned_of_play hs'
    obtain rfl := ((does_portIn .p2).of_ok hread).1.symm
    refine ⟨fun hsame => ?_, fun hsame row => ?_, fun k strobed' strobed hsame => ?_⟩
    · rw [scanned'.p2_lower reflects', scanned.p2_lower reflects, ← lower_filter history', hsame,
        lower_filter]
    · have hselect : select history' = select history := by
        rw [← select_filter history', hsame, select_filter]
      have hheld (k : Key) : isHeld k history' = isHeld k history := by
        rw [← isHeld_filter_reachesKeypad k history', hsame, isHeld_filter_reachesKeypad]
      have hrow := scanned'.p2_rows reflects' row
      simp only [hselect, hheld, ← scanned.p2_rows reflects row] at hrow
      rw [Bool.eq_iff_iff, ← Bool.not_eq_false, ← Bool.not_eq_false, hrow]
    · rw [scanned'.p2_oneHot reflects' strobed', scanned.p2_oneHot reflects strobed,
        ← isHeld_filter (fun _ hop => hop) history', hsame, isHeld_filter fun _ hop => hop]

/-- The king and the clubs are held, the ace has been released. With the columns of the ace and the
clubs strobed only the row of the clubs reads low, and a poll shows both held keys. -/
theorem clubs_read_low :
    ∃ s byte, play [.mcu (.output 0x01 0x81), .key .ace false, .key .clubs true, .key .king true,
        .key .ace true] ⟨powerOn .vbrc 20, .fresh⟩ = .ok () s ∧
      portIn .p2 s = .ok byte s ∧ byte.toNat.testBit 7 = false ∧ byte &&& 0x0F = 0x0F ∧
      ∃ bytes s', poll (List.finRange 8) s = .ok bytes s' ∧
        Key.all.filter (showsKey bytes) = [.king, .clubs] := by
  obtain ⟨hplay, hscan⟩ := keypad_scan .vbrc 20 .fresh [.mcu (.output 0x01 0x81), .key .ace false,
    .key .clubs true, .key .king true, .key .ace true]
  obtain ⟨s, hs⟩ := hplay (by decide)
  obtain ⟨byte, hread, hrows, hlower, ⟨bytes, s', hpoll, hshows⟩, -⟩ := hscan s hs
  refine ⟨s, byte, hs, hread, (hrows 3).2 ⟨.clubs, by decide⟩, hlower.trans (by decide), bytes, s',
    hpoll, ?_⟩
  rw [funext hshows]
  decide

end Board

end CardComputer
