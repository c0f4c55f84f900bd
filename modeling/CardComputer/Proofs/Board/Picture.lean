import CardComputer.Proofs.Board.BusHistory
import Mathlib.Algebra.Group.Nat.Defs

/-!
# The picture

What the display shows is the recent history of the bus. An operation commits the segment word if it
writes P1 or a port of the expander (`Board.commits`), and then shows it on the grids that the
select lines enable. A grid shows the word of the last operation that showed it one
(`Board.lastShown?`), as long as fewer ticks than the decay window have passed since then, and is
dark otherwise (`Board.picture_of_history`).
-/

namespace CardComputer

open Op

/-! ## Segment words -/

/-- The word that is made of the four bits of each port. -/
def NibblePort.word (nibbles : NibblePort → UInt8) : UInt16 :=
  .ofNat ((nibbles .p4).toNat + 16 * (nibbles .p5).toNat + 256 * (nibbles .p6).toNat
    + 4096 * (nibbles .p7).toNat)

/-- A port holds one of the four hexadecimal digits of the word. -/
theorem NibblePort.toNat_extract (port : NibblePort) (word : UInt16) :
    (port.extract word).toNat = word.toNat / 16 ^ port.index % 16 := by
  -- The shift divides by a power of sixteen, and the mask takes the remainder.
  have digit (n : Nat) : n &&& 15 = n % 16 := Nat.and_two_pow_sub_one_eq_mod n 4
  cases port <;> simp [extract, shift, index, digit, Nat.shiftRight_eq_div_pow]

/-- A word is made of its four digits. -/
theorem Display.register_eq_word (d : Display) : d.register = NibblePort.word d.nibble := by
  have hlt := d.register.toNat_lt
  apply UInt16.toNat_inj.1
  simp only [NibblePort.word, nibble, NibblePort.toNat_extract, NibblePort.index,
    UInt16.toNat_ofNat']
  omega

/-- What a grid shows is what was committed to it, unless that has decayed. -/
theorem Display.get_frame (d : Display) (grid : Fin 8) : d.frame.grids.get grid =
    if d.isVisible (d.grids.get grid) then (d.grids.get grid).segments else Frame.dark := by
  show (d.grids.map _)[grid.val] = _
  rw [Vector.getElem_map]
  rfl

namespace Board

/-! ## What a history shows -/

/-- The operation is a display tick. -/
def Operation.isTick : Operation → Bool
  | tick => true
  | _ => false

/-- How many display ticks there were. -/
def ticks (history : List Operation) : Nat := history.countP Operation.isTick

/-- Whether the latest operation commits the segment word: a write to P1 or to a port of the
expander. -/
def commits : List Operation → Bool
  | [] => false
  | op :: before =>
    match op.written? with
    | some (.p1, _) => true
    | _ => (change? op before (held before)).isSome

/-- Whether the latest operation commits the segment word to a grid: the one of a select line that
is asserted after it. -/
def shows (grid : Fin 8) (history : List Operation) : Bool :=
  commits history && SelectLines.isSet (select history) grid

/-- The history up to the last operation that showed a word on a grid, after the operations that
came later. -/
def lastShown? (grid : Fin 8) : List Operation → Option (List Operation × List Operation)
  | [] => none
  | op :: before =>
    if shows grid (op :: before) then some ([], op :: before)
    else (lastShown? grid before).map fun (later, shown) => (op :: later, shown)

/-- What was committed to a grid last. -/
def lastCommit (history : List Operation) (grid : Fin 8) : Grid :=
  match lastShown? grid history with
  | some (_, shown) => ⟨NibblePort.word (held shown), some (.ofNat (ticks shown))⟩
  | none => .unused

/-! ## Commits -/

section Step

variable {op : Operation} {before : List Operation} {b b' : Board}

/-- A display after an operation that is no tick: the word has been committed to the grids on which
the operation shows it. -/
structure Committed (history : List Operation) (b b' : Board) : Prop where
  now : b'.display.now = b.display.now
  window : b'.display.window = b.display.window
  grids : ∀ grid, b'.display.grids.get grid =
    if shows grid history then ⟨b'.display.register, some b.display.now⟩
    else b.display.grids.get grid

/-- Without a commit the display stays as it is. -/
theorem Committed.of_not_commits {history : List Operation} (h : commits history = false)
    (same : b'.display = b.display) : Committed history b b' := by
  refine ⟨by rw [same], by rw [same], fun grid => ?_⟩
  rw [shows, h, Bool.false_and, if_neg Bool.false_ne_true, same]

/-- A commit to the select lines. -/
theorem Committed.of_commits {history : List Operation} {d : Display} (h : commits history = true)
    (committed : b'.display = d.committed (select history)) (now : d.now = b.display.now)
    (window : d.window = b.display.window) (grids : d.grids = b.display.grids) :
    Committed history b b' := by
  refine ⟨?_, ?_, fun grid => ?_⟩
  · rw [committed, ← now]
    rfl
  · rw [committed, ← window]
    rfl
  · rw [committed, Display.get_committed, shows, h, Bool.true_and, now, grids]
    rfl

/-- The coprocessor writes a port. -/
theorem Reflects.committed {port : Port} {value : UInt8} (h : Reflects before b)
    (written : op.written? = some (port, value)) :
    Committed (op :: before) b (b.afterPortOut value port) := by
  have other {port' : Port} := Operation.not_writes_of_ne (q := port') written
  cases port with
  | p1 =>
    have hcommits : commits (op :: before) = true := by simp [commits, written]
    refine .of_commits (d := b.display) hcommits ?_ rfl rfl rfl
    rw [Board.select, lastWritten_of_written written]
    rfl
  | expander nibble =>
    have hcommits : commits (op :: before) = true := by simp [commits, change?, written]
    refine .of_commits (d := b.display.latch nibble value) hcommits ?_ rfl rfl rfl
    rw [select_of_not_writes (other (by simp)), ← h.select]
    exact display_nibbleShown nibble _
  | prog =>
    have hcommits : commits (op :: before) = (change? op before (Board.held before)).isSome := by
      simp [commits, written]
    rcases (h.prog written).2 with ⟨hnone, hsame⟩ | ⟨port, new, hsome, hcommitted⟩
    · rw [hnone] at hcommits
      exact .of_not_commits hcommits hsame
    · rw [hsome] at hcommits
      refine .of_commits (d := b.display.latch port new) hcommits ?_ rfl rfl rfl
      rw [hcommitted, select_of_not_writes (other (by simp)), h.select]
  | _ =>
    have hcommits : commits (op :: before) = false := by simp [commits, change?, written]
    exact .of_not_commits hcommits rfl

end Step

/-! ## Agreement with the board -/

/-- The display agrees with the history of the board. -/
structure Pictured (window : UInt64) (history : List Operation) (b : Board) : Prop where
  reflects : Reflects history b
  window : b.display.window = window
  now : b.display.now.toNat = ticks history
  grids : ∀ grid, b.display.grids.get grid = lastCommit history grid
  /-- No stall has ended, so there is a number left for the first one. -/
  stall : b.stall.state = .running → b.stall.generation = 0

/-- A fresh board agrees with the empty history. -/
theorem pictured_powerOn (model : Model) {window : UInt64} (hw : 1 ≤ window) :
    Pictured window [] (powerOn model window) where
  reflects := reflects_powerOn model window
  window := by
    refine if_neg ?_
    rintro rfl
    exact absurd hw (by decide)
  now := rfl
  grids grid := by
    show (Vector.replicate 8 Grid.unused)[grid.val] = Grid.unused
    rw [Vector.getElem_replicate]
  stall _ := rfl

section Step

variable {window : UInt64} {op : Operation} {before : List Operation} {b b' : Board}

/-- The latest operation counts if it shows the word on the grid. -/
theorem lastCommit_cons (op : Operation) (before : List Operation) (grid : Fin 8) :
    lastCommit (op :: before) grid = if shows grid (op :: before) then
      ⟨NibblePort.word (held (op :: before)), some (.ofNat (ticks (op :: before)))⟩
    else lastCommit before grid := by
  unfold lastCommit
  rw [lastShown?]
  by_cases h : shows grid (op :: before) = true
  · rw [if_pos h, if_pos h]
  · rw [if_neg h, if_neg h]
    cases lastShown? grid before with
    | none => rfl
    | some split => rfl

theorem ticks_tick (before : List Operation) : ticks (.tick :: before) = ticks before + 1 :=
  List.countP_cons_of_pos rfl

theorem ticks_of_not_tick (h : op.isTick = false) : ticks (op :: before) = ticks before := by
  simp [ticks, h]

/-- An operation that is no tick. -/
theorem Pictured.of_committed (h : Pictured window before b) (tick : op.isTick = false)
    (reflects : Reflects (op :: before) b') (committed : Committed (op :: before) b b')
    (stall : b'.stall.state = .running → b'.stall = b.stall) :
    Pictured window (op :: before) b' := by
  have hticks : ticks (op :: before) = ticks before := ticks_of_not_tick tick
  refine ⟨reflects, committed.window.trans h.window, ?_, fun grid => ?_, fun hs => ?_⟩
  · rw [committed.now, h.now, hticks]
  · have hregister : b'.display.register = NibblePort.word (held (op :: before)) := by
      rw [Display.register_eq_word]
      exact congrArg _ (funext reflects.held)
    have hnow : b.display.now = .ofNat (ticks (op :: before)) := by
      rw [hticks, ← h.now, UInt64.ofNat_toNat]
    rw [lastCommit_cons, committed.grids, h.grids, hregister, hnow]
  · have hsame := stall hs
    rw [hsame] at hs ⊢
    exact h.stall hs

/-- An operation that writes no port and is no tick leaves the display alone. -/
theorem Pictured.of_silent (h : Pictured window before b) (silent : op.written? = none)
    (tick : op.isTick = false) (lines : b'.lines = b.lines) (expander : b'.expander = b.expander)
    (display : b'.display = b.display) (stall : b'.stall.state = .running → b'.stall = b.stall) :
    Pictured window (op :: before) b' := by
  have other (port : Port) : ¬op.Writes port := Operation.not_writes_of_silent silent port
  -- It commits nothing, and it changes nothing that the history tells of the ports.
  have hcommits : commits (op :: before) = false := by simp [commits, change?, silent]
  refine h.of_committed tick ?_ (.of_not_commits hcommits display) stall
  exact h.reflects.of_remote (other _) (other _) (other _) (fun _ => other _) lines expander
    (congrArg _ display)

/-- An access of the coprocessor. -/
theorem Pictured.mcu (h : Pictured window before b) (a : Access) :
    Pictured window (.mcu a :: before) (b.afterAccess a).2 := by
  have hstall : (b.afterAccess a).2.stall = b.stall :=
    congrArg Remote.stall (remote_afterAccess b a)
  cases a with
  | output address value =>
    dsimp only [afterAccess] at hstall ⊢
    cases hport : Port.ofAddress? address with
    | none =>
      have silent : (Operation.mcu (.output address value)).written? = none := by
        simp [Operation.written?, hport]
      exact h.of_silent silent rfl rfl rfl rfl fun _ => rfl
    | some port =>
      have written : (Operation.mcu (.output address value)).written? = some (port, value) := by
        simp [Operation.written?, hport]
      rw [hport] at hstall
      rw [Option.elim_some] at hstall ⊢
      exact h.of_committed rfl (h.reflects.afterPortOut written) (h.reflects.committed written)
        fun _ => hstall
  | input address =>
    obtain ⟨mailbox, hb⟩ := afterAccess_input b address
    rw [hb]
    exact h.of_silent rfl rfl rfl rfl rfl fun _ => rfl
  | store address value => exact h.of_silent rfl rfl rfl rfl rfl fun _ => rfl
  | load address => exact h.of_silent rfl rfl rfl rfl rfl fun _ => rfl
  | idle => exact h.of_silent rfl rfl rfl rfl rfl fun _ => rfl

/-- An access of the main unit. -/
theorem Pictured.main (h : Pictured window before b) {a : Access} {read : Option UInt8} {log : Log}
    {s' : Observed Board} (performed : a.perform mainBus ⟨b, log⟩ = .ok read s') :
    Pictured window (.main a :: before) s'.device := by
  rcases perform_mainBus performed with ⟨-, hb⟩ | ⟨word, -, ⟨-, hb⟩ | ⟨-, generation, -, hb⟩⟩
  · rw [hb]
    exact h.of_silent rfl rfl rfl rfl rfl fun _ => rfl
  · rw [hb]
    exact h.of_silent rfl rfl rfl rfl rfl fun _ => rfl
  · rw [hb]
    exact h.of_silent rfl rfl rfl rfl rfl nofun

/-- A display tick. -/
theorem Pictured.tick (h : Pictured window before b) {now : UInt64}
    (counted : now.toNat = b.display.now.toNat + 1) :
    Pictured window (.tick :: before) { b with display := { b.display with now } } := by
  have other (port : Port) : ¬Operation.tick.Writes port := Operation.not_writes_of_silent rfl port
  have dark (grid : Fin 8) : shows grid (.tick :: before) = false := rfl
  refine ⟨?_, h.window, ?_, fun grid => ?_, h.stall⟩
  · exact h.reflects.of_remote (other _) (other _) (other _) (fun _ => other _) rfl rfl rfl
  · rw [counted, h.now, ticks_tick]
  · rw [lastCommit_cons, dark, if_neg Bool.false_ne_true]
    exact h.grids grid

end Step

/-! ## Whole histories -/

/-- An operation keeps the agreement. -/
theorem Pictured.perform {window : UInt64} {op : Operation} {before : List Operation}
    {s s' : Observed Board} (h : Pictured window before s.device) (hop : op.perform s = .ok () s') :
    Pictured window (op :: before) s'.device := by
  cases op with
  | mcu a =>
    obtain ⟨read, t, ht, hop⟩ := bind_eq_ok.1 hop
    obtain ⟨-, rfl⟩ := pure_eq_ok.1 hop
    rw [((does_perform_mcuBus a).of_ok ht).2]
    exact h.mcu a
  | main a =>
    obtain ⟨read, t, ht, hop⟩ := bind_eq_ok.1 hop
    obtain ⟨-, rfl⟩ := pure_eq_ok.1 hop
    exact h.main ht
  | key k pressed =>
    obtain rfl := update_eq_ok.1 hop
    exact h.of_silent rfl rfl rfl rfl rfl fun _ => rfl
  | tick =>
    change onDisplay Display.tick s = _ at hop
    obtain ⟨t, ht, rfl⟩ := within_eq_ok.1 hop
    obtain ⟨now, counted, hd⟩ := Display.tick_eq_ok ht
    rw [hd]
    exact h.tick counted

/-- An operation succeeds as long as the ticks can be counted. -/
theorem Pictured.exists_perform {window : UInt64} {op : Operation} {before : List Operation}
    {s : Observed Board} (h : Pictured window before s.device)
    (hticks : ticks (op :: before) < UInt64.size) : ∃ s', op.perform s = .ok () s' := by
  cases op with
  | mcu a =>
    obtain ⟨log, hlog⟩ := does_bind (does_perform_mcuBus a) (fun _ => does_pure ()) s
    exact ⟨_, hlog⟩
  | main a =>
    -- The first stall can be numbered, and there is no second one.
    obtain ⟨read, t, ht⟩ := exists_perform_mainBus (b := s.device)
      (fun hs => by rw [h.stall hs]; decide) a s.log
    exact ⟨t, bind_of_ok ht⟩
  | key k pressed => exact ⟨_, rfl⟩
  | tick =>
    rw [ticks_tick, ← h.now] at hticks
    obtain ⟨t, ht⟩ := Display.exists_tick hticks s.log
    have htick : onDisplay Display.tick s = .ok () _ := within_eq_ok.2 ⟨t, ht, rfl⟩
    exact ⟨_, htick⟩

/-- The board after a history agrees with it. -/
theorem pictured_of_play {model : Model} {window : UInt64} (hw : 1 ≤ window)
    {history : List Operation} {log : Log} {s : Observed Board}
    (h : play history ⟨powerOn model window, log⟩ = .ok () s) :
    Pictured window history s.device := by
  induction history generalizing s with
  | nil =>
    obtain ⟨-, rfl⟩ := pure_eq_ok.1 h
    exact pictured_powerOn model hw
  | cons op before ih =>
    obtain ⟨_, t, ht, hop⟩ := bind_eq_ok.1 h
    exact (ih ht).perform hop

/-- Every history with fewer ticks than can be counted is one of a fresh board. -/
theorem exists_play (model : Model) {window : UInt64} (hw : 1 ≤ window)
    {history : List Operation} (hticks : ticks history < UInt64.size) (log : Log) :
    ∃ s, play history ⟨powerOn model window, log⟩ = .ok () s := by
  induction history with
  | nil => exact ⟨_, rfl⟩
  | cons op before ih =>
    have hle : ticks before ≤ ticks (op :: before) :=
      (List.sublist_cons_self op before).countP_le
    obtain ⟨t, ht⟩ := ih (Nat.lt_of_le_of_lt hle hticks)
    obtain ⟨s, hs⟩ := (pictured_of_play hw ht).exists_perform hticks
    exact ⟨s, (bind_of_ok ht).trans hs⟩

/-- The two parts of a history are the whole of it. -/
theorem eq_append_of_lastShown? {grid : Fin 8} {history later shown : List Operation}
    (h : lastShown? grid history = some (later, shown)) : history = later ++ shown := by
  induction history generalizing later with
  | nil => cases h
  | cons op before ih =>
    rw [lastShown?] at h
    split at h
    · cases h
      rfl
    · obtain ⟨⟨later', shown'⟩, h', heq⟩ := Option.map_eq_some_iff.1 h
      cases heq
      rw [ih h', List.cons_append]

/-- What was committed to a grid can be seen as long as fewer ticks than the window have passed. -/
theorem Pictured.get_frame {window : UInt64} {history : List Operation} {b : Board}
    (h : Pictured window history b) (grid : Fin 8) : b.display.frame.grids.get grid =
      match lastShown? grid history with
      | some (later, shown) =>
        if ticks later < window.toNat then NibblePort.word (held shown) else Frame.dark
      | none => Frame.dark := by
  have hlt := b.display.now.toNat_lt
  rw [Display.get_frame, h.grids, lastCommit]
  cases hlast : lastShown? grid history with
  | none => rfl
  | some split =>
    obtain ⟨later, shown⟩ := split
    have hticks : ticks history = ticks later + ticks shown := by
      rw [eq_append_of_lastShown? hlast, ticks, List.countP_append]
      rfl
    have hnow := h.now
    -- The age of the word is the number of the ticks since.
    have hage : b.display.isVisible ⟨NibblePort.word (held shown), some (.ofNat (ticks shown))⟩ =
        decide (ticks later < window.toNat) := by
      have hshown : (UInt64.ofNat (ticks shown)).toNat = ticks shown :=
        UInt64.toNat_ofNat_of_lt' (by rw [UInt64.size]; omega)
      have hsub : b.display.now.toNat - (UInt64.ofNat (ticks shown)).toNat = ticks later := by
        omega
      simp only [Display.isVisible, hsub, h.window]
    simp only [hage, decide_eq_true_eq]

/-- The picture is exactly the recent history of the bus. Every history with fewer ticks than can be
counted is one of a fresh board; each grid shows the word of the last operation that showed it one,
if fewer ticks than the decay window have passed since, and is dark otherwise; and an operation that
is no tick and shows no word on a grid leaves the record of the grid and what it shows as they
are. -/
theorem picture_of_history (model : Model) {window : UInt64} (hw : 1 ≤ window)
    (history : List Operation) (log : Log) :
    (ticks history < UInt64.size → ∃ s, play history ⟨powerOn model window, log⟩ = .ok () s) ∧
      ∀ s, play history ⟨powerOn model window, log⟩ = .ok () s → ∀ grid : Fin 8,
        (s.device.display.frame.grids.get grid =
          match lastShown? grid history with
          | some (later, shown) =>
            if ticks later < window.toNat then NibblePort.word (held shown) else Frame.dark
          | none => Frame.dark) ∧
        ∀ op s', op.perform s = .ok () s' → op.isTick = false →
          shows grid (op :: history) = false →
            s'.device.display.grids.get grid = s.device.display.grids.get grid ∧
            s'.device.display.frame.grids.get grid = s.device.display.frame.grids.get grid := by
  refine ⟨fun hticks => exists_play model hw hticks log, fun s hs grid => ?_⟩
  have h := pictured_of_play hw hs
  refine ⟨h.get_frame grid, fun op s' hop tick hidden => ?_⟩
  have h' := h.perform hop
  have hlast : lastShown? grid (op :: history) =
      (lastShown? grid history).map fun (later, shown) => (op :: later, shown) := by
    rw [lastShown?, hidden, if_neg Bool.false_ne_true]
  constructor
  · rw [h'.grids, h.grids, lastCommit_cons, hidden, if_neg Bool.false_ne_true]
  · rw [h'.get_frame, h.get_frame, hlast]
    cases lastShown? grid history with
    | none => rfl
    | some split => simp only [Option.map_some, ticks_of_not_tick tick]

/-- The port P4 is written directly, changed by an OR through the expander while grid 0 is selected,
and changed by an AND while grid 1 is. -/
def orThenAnd : List Operation :=
  [.tick, .mcu (.output 0x12 1), .mcu (.output 0x02 6), .mcu (.output 0x12 0),
    .mcu (.output 0x02 0x0C), .mcu (.output 0x01 2), .mcu (.output 0x12 1), .mcu (.output 0x02 5),
    .mcu (.output 0x12 0), .mcu (.output 0x02 8), .mcu (.output 0x01 1), .mcu (.output 0x04 0x0A)]

/-- What a grid shows after a history of a fresh board, if that succeeds. -/
@[irreducible]
def shownAfter? (model : Model) (window : UInt64) (history : List Operation) (grid : Fin 8) :
    Option UInt16 :=
  match play history ⟨powerOn model window, .fresh⟩ with
  | .ok _ s => some (s.device.display.frame.grids.get grid)
  | .error _ _ => none

/-- Both results are shown for the one tick that is left of a window of two, as the board works them
out and as the history tells. -/
theorem picture_of_or : (1 : UInt64) ≤ 2 ∧ shownAfter? .vbrc 2 orThenAnd 0 = some 0x000F ∧
    shownAfter? .vbrc 2 orThenAnd 1 = some 0x0006 ∧
    ∃ s, play orThenAnd ⟨powerOn .vbrc 2, .fresh⟩ = .ok () s ∧
      s.device.display.frame.grids.get 0 = 0x000F ∧
      s.device.display.frame.grids.get 1 = 0x0006 := by
  have hw : (1 : UInt64) ≤ 2 := by decide
  -- The boards are evaluated by the kernel, the history by unfolding what it says of each grid.
  refine ⟨hw, by decide +kernel, by decide +kernel, ?_⟩
  obtain ⟨hplay, hpicture⟩ := picture_of_history .vbrc hw orThenAnd .fresh
  obtain ⟨s, hs⟩ := hplay (by decide)
  exact ⟨s, hs, (hpicture s hs 0).1.trans rfl, (hpicture s hs 1).1.trans rfl⟩

end Board

end CardComputer
