import CardComputer.Processor

/-!
# What an access changes

The coprocessor reaches everything on the board but its model, the scanner, the keypad, the stall
control, the decay window, the clock and the word for the speech unit
(`Board.keeps_perform_mcuBus`).

The main unit reaches the mailbox and, with an access that speaks (`Access.word?`), the speech unit.
A word begins a stall, or is dropped during one (`Board.perform_mainBus`).
-/

namespace CardComputer

open Op

/-- The word that an access of the main unit gives to the speech unit. -/
def Access.word? (b : Board) : Access → Option UInt8
  | .store address value => if b.answersAt address then some (value &&& 0x3F) else none
  | _ => none

/-- The stall control after a stall began. -/
def StallControl.begun (c : StallControl) (generation : UInt64) : StallControl :=
  { c with state := .stalled, owner := some .speech, generation }

/-- A running main unit is stalled, and the stall is given the next number. -/
theorem StallControl.begin_ok_of_running {c : StallControl} {log : Log} {begun : Bool}
    {s' : Observed StallControl} (hc : c.state = .running)
    (h : StallControl.begin .speech ⟨c, log⟩ = .ok begun s') :
    begun = true ∧ ∃ generation, generation.toNat = c.generation.toNat + 1 ∧
      s'.device = c.begun generation := by
  obtain ⟨d, t, hd, h⟩ := bind_eq_ok.1 h
  obtain ⟨rfl, rfl⟩ := device_eq_ok.1 hd
  rw [hc] at h
  obtain ⟨_, u, hu, h⟩ := bind_eq_ok.1 h
  have hlog : u.device = c := device_of_say hu
  obtain ⟨_, v, hv, h⟩ := bind_eq_ok.1 h
  obtain ⟨generation, w, hw, h⟩ := bind_eq_ok.1 h
  obtain ⟨_, x, hx, h⟩ := bind_eq_ok.1 h
  obtain rfl := update_eq_ok.1 hv
  obtain ⟨hadd, rfl⟩ := check_eq_ok.1 hw
  obtain rfl := update_eq_ok.1 hx
  obtain ⟨rfl, rfl⟩ := pure_eq_ok.1 h
  refine ⟨rfl, generation, checkedAdd_eq_ok_iff.1 hadd, ?_⟩
  simp only [hlog, begun]

/-- A word during a stall is dropped. -/
theorem StallControl.begin_ok_of_stalled {c : StallControl} {log : Log} {begun : Bool}
    {s' : Observed StallControl} (hc : c.state = .stalled)
    (h : StallControl.begin .speech ⟨c, log⟩ = .ok begun s') :
    begun = false ∧ s'.device = c := by
  obtain ⟨d, t, hd, h⟩ := bind_eq_ok.1 h
  obtain ⟨rfl, rfl⟩ := device_eq_ok.1 hd
  rw [hc] at h
  obtain ⟨_, u, hu, h⟩ := bind_eq_ok.1 h
  obtain ⟨rfl, rfl⟩ := pure_eq_ok.1 h
  exact ⟨rfl, device_of_say hu⟩

theorem Display.keeps_commit (select : UInt8) : Keeps Display.window (Display.commit select) := by
  refine keeps_bind keeps_device fun d => ?_
  refine keeps_bind (keeps_forIn (fun grid _ => ?_) _) fun _ => keeps_update fun _ => rfl
  split
  · exact keeps_bind (keeps_say _ _ _) fun _ => keeps_pure _
  · exact keeps_pure _

/-- Driving PROG keeps the decay window. -/
theorem ExpandedDisplay.keeps_setProg (level : Bool) :
    Keeps (fun s => s.display.window) (ExpandedDisplay.setProg level) := by
  refine keeps_bind keeps_device fun s => ?_
  split
  · exact keeps_bind (keeps_update fun _ => rfl) fun _ => keeps_pure _
  · split
    · refine keeps_bind (keeps_update fun _ => rfl) fun _ => ?_
      split
      · exact keeps_bind (keeps_say _ _ _) fun _ =>
          keeps_bind (keeps_update fun _ => rfl) fun _ => keeps_pure _
      · exact keeps_pure _
    · exact keeps_pure _

namespace Board

/-! ## The coprocessor -/

/-- What the coprocessor cannot reach. -/
structure Remote where
  model : Model
  scanner : Scanner
  keypad : Keypad
  stall : StallControl
  window : UInt64
  now : UInt64
  playback : Option UInt8

/-- The parts of a board that the coprocessor cannot reach. -/
def remote (b : Board) : Remote :=
  ⟨b.model, b.scanner, b.keypad, b.stall, b.display.window, b.now, b.playback⟩

theorem keeps_onDisplay_commit (select : UInt8) :
    Keeps remote (onDisplay (Display.commit select)) :=
  keeps_within_of_keeps (Display.keeps_commit select) fun d b h => by simp only [remote, h]

theorem keeps_nibbleWritten (port : NibblePort) : Keeps remote (nibbleWritten port) := by
  refine keeps_bind keeps_device fun b => ?_
  refine keeps_bind (keeps_onDisplay_commit _) fun _ => ?_
  split
  · exact keeps_update fun _ => rfl
  · exact keeps_pure _

theorem keeps_portIn (port : Port) : Keeps remote (portIn port) := by
  cases port with
  | dbb =>
    show Keeps remote (onMailbox (Op.change Mailbox.takeInput))
    exact keeps_within (by intros; rfl) _
  | prog => exact keeps_pure _
  | _ => exact keeps_bind keeps_device fun _ => keeps_pure _

theorem keeps_portOut (port : Port) (value : UInt8) : Keeps remote (portOut port value) := by
  unfold portOut
  cases port with
  | p1 =>
    exact keeps_bind (keeps_within (by intros; rfl) _) fun _ => keeps_onDisplay_commit _
  | expander nibble =>
    exact keeps_bind (keeps_update fun _ => rfl) fun _ => keeps_nibbleWritten nibble
  | prog =>
    have drive : Keeps remote (onExpander (ExpandedDisplay.setProg (value &&& 1 != 0))) :=
      keeps_within_of_keeps (ExpandedDisplay.keeps_setProg _) fun s b h => by
        simp only at h
        simp only [remote, h]
    refine keeps_bind drive fun written => ?_
    cases written with
    | none => exact keeps_pure _
    | some nibble => exact keeps_nibbleWritten nibble
  | t0 => exact keeps_say _ _ _
  | t1 => exact keeps_say _ _ _
  | _ => exact keeps_update fun _ => rfl

/-- An access of the coprocessor keeps what it cannot reach. -/
theorem keeps_perform_mcuBus (a : Access) : Keeps remote (a.perform mcuBus) := by
  cases a with
  | output address value =>
    refine keeps_bind ?_ fun _ => keeps_pure _
    dsimp only [mcuBus]
    split
    · exact keeps_portOut _ _
    · exact keeps_say _ _ _
  | input address =>
    refine keeps_bind ?_ fun _ => keeps_pure _
    dsimp only [mcuBus]
    split
    · exact keeps_portIn _
    · exact keeps_bind (keeps_say _ _ _) fun _ => keeps_pure _
  | store address value => exact keeps_bind (keeps_pure _) fun _ => keeps_pure _
  | load address => exact keeps_bind (keeps_pure _) fun _ => keeps_pure _
  | idle => exact keeps_pure _

/-! ## The main unit -/

/-- What the main unit cannot reach without a word for the speech unit: all but the mailbox. -/
def unmailed (b : Board) : Board := { b with mailbox := .empty }

/-- Two boards that differ at most in the mailbox. -/
theorem eq_of_unmailed {b b' : Board} (h : b'.unmailed = b.unmailed) :
    b' = { b with mailbox := b'.mailbox } := by
  cases b
  cases b'
  simp only [unmailed, mk.injEq] at h ⊢
  simp only [h, and_self]

/-- An access without a word for the speech unit changes at most the mailbox. -/
theorem perform_mainBus_of_mute {a : Access} {s s' : Observed Board} {read : Option UInt8}
    (ha : a.word? s.device = none) (h : a.perform mainBus s = .ok read s') :
    s'.device = { s.device with mailbox := s'.device.mailbox } := by
  -- The board without its mailbox is what must be kept.
  apply eq_of_unmailed
  cases a with
  | output address value =>
    have hk : Keeps unmailed (onMailbox (Mailbox.hostWrite (address &&& 1 != 0) value)) :=
      keeps_within (by intros; rfl) _
    exact keeps_bind hk (fun _ => keeps_pure _) _ _ _ h
  | input address =>
    have hk : Keeps unmailed (onMailbox (Mailbox.hostRead (address &&& 1 != 0))) :=
      keeps_within (by intros; rfl) _
    exact keeps_bind hk (fun _ => keeps_pure _) _ _ _ h
  | store address value =>
    obtain ⟨_, t, ht, h⟩ := bind_eq_ok.1 h
    obtain ⟨-, rfl⟩ := pure_eq_ok.1 h
    obtain ⟨b, u, hu, ht⟩ := bind_eq_ok.1 ht
    obtain ⟨rfl, rfl⟩ := device_eq_ok.1 hu
    have silent : s.device.answersAt address = false := by simpa [Access.word?] using ha
    rw [silent, if_neg Bool.false_ne_true] at ht
    rw [device_of_say ht]
  | load address =>
    have hk : Keeps unmailed (mainBus.load address) := by
      refine keeps_bind keeps_device fun b => ?_
      split
      · exact keeps_pure _
      · exact keeps_bind (keeps_say _ _ _) fun _ => keeps_pure _
    exact keeps_bind hk (fun _ => keeps_pure _) _ _ _ h
  | idle => exact keeps_pure _ _ _ _ h

/-- A word is dropped during a stall; otherwise it begins one and waits to be timed. -/
theorem speak_ok {word : UInt8} {s s' : Observed Board} (h : speak word s = .ok () s') :
    (s.device.stall.state = .stalled ∧ s'.device = s.device) ∨
    (s.device.stall.state = .running ∧ ∃ generation,
      generation.toNat = s.device.stall.generation.toNat + 1 ∧
      s'.device = { s.device with
        stall := s.device.stall.begun generation
        playback := some word }) := by
  obtain ⟨begun, t, ht, h⟩ := bind_eq_ok.1 h
  obtain ⟨c, hc, rfl⟩ := within_eq_ok.1 ht
  cases hs : s.device.stall.state with
  | stalled =>
    obtain ⟨rfl, hd⟩ := StallControl.begin_ok_of_stalled hs hc
    obtain ⟨-, rfl⟩ := pure_eq_ok.1 h
    refine Or.inl ⟨rfl, ?_⟩
    rw [hd]
  | running =>
    obtain ⟨rfl, generation, hg, hd⟩ := StallControl.begin_ok_of_running hs hc
    rw [if_pos rfl] at h
    obtain ⟨_, u, hu, h⟩ := bind_eq_ok.1 h
    have hlog := device_of_say hu
    obtain rfl := update_eq_ok.1 h
    refine Or.inr ⟨rfl, generation, hg, ?_⟩
    simp only [hlog, hd]

/-- An access of the main unit changes at most the mailbox, drops its word, or begins a stall with
it. -/
theorem perform_mainBus {a : Access} {s s' : Observed Board} {read : Option UInt8}
    (h : a.perform mainBus s = .ok read s') :
    (a.word? s.device = none ∧ s'.device = { s.device with mailbox := s'.device.mailbox }) ∨
    ∃ word, a.word? s.device = some word ∧
      ((s.device.stall.state = .stalled ∧ s'.device = s.device) ∨
      (s.device.stall.state = .running ∧ ∃ generation,
        generation.toNat = s.device.stall.generation.toNat + 1 ∧
        s'.device = { s.device with
          stall := s.device.stall.begun generation
          playback := some word })) := by
  cases hw : a.word? s.device with
  | none => exact Or.inl ⟨rfl, perform_mainBus_of_mute hw h⟩
  | some word =>
    refine Or.inr ⟨word, rfl, ?_⟩
    cases a with
    | store address value =>
      simp only [Access.word?, Option.ite_none_right_eq_some, Option.some.injEq] at hw
      obtain ⟨answers, rfl⟩ := hw
      obtain ⟨_, t, ht, h⟩ := bind_eq_ok.1 h
      obtain ⟨-, rfl⟩ := pure_eq_ok.1 h
      obtain ⟨b, u, hu, ht⟩ := bind_eq_ok.1 ht
      obtain ⟨rfl, rfl⟩ := device_eq_ok.1 hu
      rw [if_pos answers] at ht
      exact speak_ok ht
    | _ => simp [Access.word?] at hw

end Board

end CardComputer
