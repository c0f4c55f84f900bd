import CardComputer.Proofs.Board.Unlogged
import CardComputer.Proofs.Card.Scanner

/-!
# Histories of a scanner

What has happened to a scanner is told by a list of operations, the latest first. Only the last
swipe since the last reset counts, and the number of ticks after it (`Scanner.lastSwipe?`). The
scanner after a history is the one that has shifted out so many half-bits of this card
(`Scanner.play_eq`), and all that it shows follows from that (`Scanner.swiped_iterate_tick`,
`Scanner.follows_last_swipe`).

No branch of the scanner makes it bright after a swipe. It is so because nothing is left of the
stream when no half-bits are left, which is the case of `Scanner.stream_lt` without any half-bits.
-/

namespace CardComputer

open Op

@[simp]
theorem Swipe.length_levels (c : CardCode) : (levels c).length = halfBits := by simp [levels]

namespace Scanner

/-! ## What a history tells -/

/-- Something that happens to a scanner. -/
inductive Operation where
  | swipe (c : CardCode)
  | tick
  | reset

/-- Carries out an operation. -/
def Operation.perform : Operation → Op Scanner Unit
  | swipe c => Scanner.swipe c
  | tick => Op.update Scanner.tick
  | reset => Op.update fun _ => idle

/-- Carries out the operations of a history, in which the latest one comes first. -/
def play : List Operation → Op Scanner Unit
  | [] => return ()
  | op :: before => do
    play before
    op.perform

/-- The card of the last swipe since the last reset, and how many ticks came after it. -/
def lastSwipe? : List Operation → Option (CardCode × ℕ)
  | [] => none
  | .swipe c :: _ => some (c, 0)
  | .tick :: before => (lastSwipe? before).map fun (c, k) => (c, k + 1)
  | .reset :: _ => none

/-- What came before a swipe makes no difference to what came last. -/
theorem lastSwipe?_append (c : CardCode) (later before before' : List Operation) :
    lastSwipe? (later ++ .swipe c :: before) = lastSwipe? (later ++ .swipe c :: before') := by
  induction later with
  | nil => rfl
  | cons op later ih =>
    cases op with
    | swipe | reset => rfl
    | tick => simp only [List.cons_append, lastSwipe?, ih]

/-- The scanner that a history leaves behind. -/
def settled (history : List Operation) : Scanner :=
  match lastSwipe? history with
  | some (c, k) => Scanner.tick^[k] (loaded c)
  | none => idle

theorem settled_swipe (c : CardCode) (before : List Operation) :
    settled (.swipe c :: before) = loaded c := rfl

theorem settled_reset (before : List Operation) : settled (.reset :: before) = idle := rfl

theorem settled_tick (before : List Operation) :
    settled (.tick :: before) = (settled before).tick := by
  simp only [settled, lastSwipe?]
  cases lastSwipe? before with
  | none => exact tick_idle.symm
  | some last => exact Function.iterate_succ_apply' _ _ _

/-! ## What the scanner shows -/

/-- A scanner some ticks after the start of a swipe. -/
structure Swiped (c : CardCode) (k : ℕ) (s : Scanner) : Prop where
  stream : s.stream.toNat = (Swipe.encode c).toNat >>> k
  remaining : s.remaining.toNat = Swipe.halfBits - min k Swipe.halfBits
  position : s.position = .ok (UInt8.ofNat (min k Swipe.halfBits))
  isScanning : s.isScanning = true ↔ k < Swipe.halfBits
  card : s.card = some c
  sense_of_lt : ∀ hk : k < (Swipe.levels c).length, s.sense = (Swipe.levels c)[k]
  sense_of_le : Swipe.halfBits ≤ k → s.sense = true

/-- The half-bits that are left. -/
theorem remaining_iterate_tick (c : CardCode) (k : ℕ) :
    (Scanner.tick^[k] (loaded c)).remaining.toNat = Swipe.halfBits - min k Swipe.halfBits := by
  have hlt : Swipe.halfBits - k < UInt8.size := by
    unfold Swipe.halfBits UInt8.size
    omega
  rw [iterate_tick_loaded, UInt8.toNat_ofNat_of_lt' hlt]
  omega

theorem stream_iterate_tick (c : CardCode) (k : ℕ) :
    (Scanner.tick^[k] (loaded c)).stream.toNat = (Swipe.encode c).toNat >>> k := by
  have hlt : (Swipe.encode c).toNat >>> k < UInt32.size :=
    Nat.lt_of_le_of_lt (Nat.shiftRight_le _ _) (Swipe.encode c).toNat_lt
  rw [iterate_tick_loaded, UInt32.toNat_ofNat_of_lt' hlt]

theorem swiped_iterate_tick (c : CardCode) (k : ℕ) : Swiped c k (Scanner.tick^[k] (loaded c)) := by
  have hremaining := remaining_iterate_tick c k
  have hsense := sense_iterate_tick c k
  refine ⟨stream_iterate_tick c k, hremaining, ?_, ?_, ?_, fun hk => ?_, fun hk => ?_⟩
  · -- The subtraction fits: no more half-bits are left than a swipe has.
    have hlt : min k Swipe.halfBits < UInt8.size := by
      unfold Swipe.halfBits UInt8.size
      omega
    rw [position, checkedSub_eq_ok_iff, hremaining, UInt8.toNat_ofNat_of_lt' hlt]
    exact (Nat.sub_add_cancel (Nat.min_le_right _ _)).symm
  · rw [isScanning, decide_eq_true_iff, UInt8.lt_iff_toNat_lt, hremaining]
    show 0 < _ ↔ _
    omega
  · rw [iterate_tick_loaded]
  · rw [hsense, List.getD_eq_getElem?_getD, List.getElem?_eq_getElem hk, Option.getD_some]
  · rw [← Swipe.length_levels c] at hk
    rw [hsense, List.getD_eq_getElem?_getD, List.getElem?_eq_none hk, Option.getD_none]

/-- The stream has no more bits than half-bits are left. -/
theorem stream_lt (history : List Operation) :
    (settled history).stream.toNat < 2 ^ (settled history).remaining.toNat := by
  unfold settled
  split
  · rename_i c k _
    rw [stream_iterate_tick, remaining_iterate_tick]
    by_cases hk : k ≤ Swipe.halfBits
    · have hlt : (Swipe.encode c).toNat < 2 ^ Swipe.halfBits := Swipe.encode_lt (by decide) c
      rwa [Nat.min_eq_left hk, Nat.shiftRight_eq_div_pow, Nat.div_lt_iff_lt_mul (Nat.two_pow_pos k),
        ← Nat.pow_add, Nat.sub_add_cancel hk]
    · -- All half-bits have passed, and with them the stream.
      have hlt : (Swipe.encode c).toNat < 2 ^ k :=
        Swipe.encode_lt (Nat.le_trans (by decide) (Nat.le_of_not_le hk)) c
      rw [Nat.shiftRight_eq_div_pow, Nat.div_eq_of_lt hlt]
      exact Nat.two_pow_pos _
  · decide

/-! ## Whole histories -/

/-- A scanner is never ahead of a whole swipe. -/
theorem remaining_settled_le (history : List Operation) :
    (settled history).remaining ≤ Swipe.halfBits.toUInt8 := by
  rw [UInt8.le_iff_toNat_le]
  unfold settled
  split
  · rename_i c k _
    rw [remaining_iterate_tick]
    exact Nat.sub_le _ _
  · decide

/-- No operation fails, whatever is logged, and together they leave behind what the history
tells. -/
theorem play_eq (history : List Operation) (log : Log) :
    ∃ log', play history ⟨idle, log⟩ = .ok () ⟨settled history, log'⟩ := by
  induction history with
  | nil => exact ⟨log, rfl⟩
  | cons op before ih =>
    obtain ⟨log', hbefore⟩ := ih
    have hplay : play (op :: before) ⟨idle, log⟩ = op.perform ⟨settled before, log'⟩ :=
      bind_of_ok hbefore
    rw [hplay]
    cases op with
    | swipe c =>
      -- The message about a second swipe asks for the position of the first one.
      rw [settled_swipe]
      exact swipe_eq_ok_of_le (s := ⟨settled before, log'⟩) c (remaining_settled_le before)
    | tick =>
      rw [settled_tick]
      exact ⟨log', rfl⟩
    | reset =>
      rw [settled_reset]
      exact ⟨log', rfl⟩

/-- Only the last swipe counts. Whatever the history of a new scanner, and whatever is logged,
nothing fails. If a card was swiped since the last reset, the scanner is the one that has shifted
out one half-bit of the last such card with every tick after that; otherwise it is as at first, and
sees bright. What came before a swipe has no effect on the scanner, and the stream never has more
bits than half-bits are left. -/
theorem follows_last_swipe (history : List Operation) (log : Log) :
    ∃ s, play history ⟨idle, log⟩ = .ok () s ∧
      (match lastSwipe? history with
        | some (c, k) => Swiped c k s.device
        | none => s.device = idle ∧ s.device.sense = true) ∧
      (∀ c later before, history = later ++ .swipe c :: before → ∀ before' log' s',
        play (later ++ .swipe c :: before') ⟨idle, log'⟩ = .ok () s' → s'.device = s.device) ∧
      s.device.stream.toNat < 2 ^ s.device.remaining.toNat := by
  obtain ⟨log₁, hplay⟩ := play_eq history log
  refine ⟨_, hplay, ?_, ?_, stream_lt history⟩
  · simp only [settled]
    cases lastSwipe? history with
    | none => exact ⟨rfl, rfl⟩
    | some last => exact swiped_iterate_tick last.1 last.2
  · -- Both histories tell the same, up to the swipe.
    rintro c later before rfl before' log' s' hplay'
    obtain ⟨log₂, hsettled⟩ := play_eq (later ++ .swipe c :: before') log'
    rw [hsettled] at hplay'
    cases hplay'
    simp only [settled, lastSwipe?_append c later before' before]

/-- A card is swiped while another one is still passing, after a third one before a reset. Seven
ticks later thirteen half-bits of it are left, and the sensor sees its eighth level, which is dark,
as it does without the other cards. -/
theorem follows_second_swipe :
    ∃ s, play (List.replicate 7 .tick ++ .swipe (.truncate 0x4A) ::
        (List.replicate 3 .tick ++ [.swipe (.truncate 0x37), .reset, .swipe (.truncate 0x23)]))
      ⟨idle, .fresh⟩ = .ok () s ∧
      s.device.remaining.toNat = 13 ∧ s.device.sense = false ∧
      ∀ s', play (List.replicate 7 .tick ++ [.swipe (.truncate 0x4A)]) ⟨idle, .fresh⟩ = .ok () s' →
        s'.device = s.device := by
  obtain ⟨s, hplay, hswiped, hfree, -⟩ := follows_last_swipe
    (List.replicate 7 .tick ++ .swipe (.truncate 0x4A) ::
      (List.replicate 3 .tick ++ [.swipe (.truncate 0x37), .reset, .swipe (.truncate 0x23)]))
    .fresh
  have hswiped : Swiped (.truncate 0x4A) 7 s.device := hswiped
  have hdark : s.device.sense = false := (hswiped.sense_of_lt (by decide)).trans (by decide)
  exact ⟨s, hplay, hswiped.remaining, hdark, hfree _ _ _ rfl [] .fresh⟩

end Scanner

end CardComputer
