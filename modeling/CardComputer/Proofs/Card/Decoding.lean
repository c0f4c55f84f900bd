import CardComputer.Proofs.Board.Unlogged
import CardComputer.Proofs.Machine.Effect
import CardComputer.Proofs.Card.Scanner

/-!
# What decodes to a code

Of the lists of levels exactly those decode to a code that show the nine bits of its barcode, each
as a pair of different half-bits, from their second level on (`Swipe.decode_eq_some_iff`). The proof
goes through the bits: `Swipe.readPairs` accepts the lists of pairs and shifts in one bit for each
of them (`Swipe.readPairs_eq_some_iff`), equally many bits that shift in to the same number are the
same (`Swipe.foldl_shiftIn_inj`), and the bits of a card shift in to its barcode
(`Swipe.foldl_shiftIn_bits`).
-/

namespace CardComputer

/-! ## The bits of a card -/

/-- The nine bits on a card in the order in which they are read: a 0, the bits of the code from the
most significant one down, and a 1. -/
def CardCode.bits (c : CardCode) : List Bool :=
  false :: [6, 5, 4, 3, 2, 1, 0].map c.value.toNat.testBit ++ [true]

@[simp]
theorem CardCode.length_bits (c : CardCode) : c.bits.length = 9 := rfl

/-- The code on a card can be read off its barcode. -/
theorem CardCode.ofBarcode?_barcode (c : CardCode) : ofBarcode? c.barcode = some c :=
  CardCode.forall_of_fin (P := fun c => ofBarcode? c.barcode = some c) (by decide +kernel) c

/-- Nine bits are the barcode of every code that is read off them. -/
theorem CardCode.barcode_of_ofBarcode? {word : UInt16} {c : CardCode} (hlt : word.toNat < 2 ^ 9)
    (h : ofBarcode? word = some c) : word = c.barcode := by
  have all : ∀ n : Fin (2 ^ 9), ∀ c ∈ ofBarcode? (UInt16.ofNat n), UInt16.ofNat n = c.barcode := by
    decide +kernel
  have hword := all ⟨word.toNat, hlt⟩ c
  rw [UInt16.ofNat_toNat] at hword
  exact hword h

namespace Swipe

/-! ## Pairs of half-bits -/

/-- How a bit is shown; true is bright. -/
def halves : Bool → List Bool
  | true => [true, false]
  | false => [false, true]

/-- One more bit at the lower end of a number. -/
def shiftIn (word : UInt16) (bit : Bool) : UInt16 :=
  word * 2 + if bit then 1 else 0

@[simp]
theorem length_flatMap_halves (bits : List Bool) :
    (bits.flatMap halves).length = 2 * bits.length := by
  induction bits with
  | nil => rfl
  | cons bit bits ih => cases bit <;> simp [halves, ih] <;> omega

/-- A list of pairs with at least two levels starts with the pair of its first bit. -/
theorem eq_cons_of_cons_cons_eq {a b : Bool} {seen bits rest : List Bool} (hrest : rest.length < 2)
    (h : a :: b :: seen = bits.flatMap halves ++ rest) :
    b = !a ∧ ∃ bits', bits = a :: bits' ∧ seen = bits'.flatMap halves ++ rest := by
  cases bits with
  | nil =>
    obtain rfl : a :: b :: seen = rest := h
    rw [List.length_cons, List.length_cons] at hrest
    omega
  | cons bit bits =>
    have hpair : a = bit ∧ b = !bit ∧ seen = bits.flatMap halves ++ rest := by
      cases bit <;> simpa [halves] using h
    obtain ⟨rfl, rfl, rfl⟩ := hpair
    exact ⟨rfl, bits, rfl, rfl⟩

/-- Pairs are read up to a level that is left alone at the end; what they show is shifted in. -/
theorem readPairs_eq_some_iff {word result : UInt16} {seen : List Bool} :
    readPairs word seen = some result ↔
      ∃ (bits rest : List Bool), seen = bits.flatMap halves ++ rest ∧ rest.length < 2 ∧
        result = bits.foldl shiftIn word := by
  induction word, seen using readPairs.induct with
  | case1 word a rest =>
    -- A pair of equal halves shows no bit.
    simp only [readPairs, if_true, reduceCtorEq, false_iff]
    rintro ⟨bits, rest', hseen, hrest, -⟩
    have hne := (eq_cons_of_cons_cons_eq hrest hseen).1
    cases a <;> exact Bool.noConfusion hne
  | case2 word a b seen hne ih =>
    rw [readPairs, if_neg hne, ih]
    constructor
    · rintro ⟨bits, rest, rfl, hrest, rfl⟩
      have hpair : [a, b] = halves a := by cases a <;> cases b <;> simp_all [halves]
      exact ⟨a :: bits, rest, by rw [List.flatMap_cons, ← hpair]; rfl, hrest, rfl⟩
    · rintro ⟨bits, rest, hseen, hrest, rfl⟩
      obtain ⟨-, bits, rfl, rfl⟩ := eq_cons_of_cons_cons_eq hrest hseen
      exact ⟨bits, rest, rfl, hrest, rfl⟩
  | case3 seen word hshort =>
    rw [readPairs.eq_2 _ _ hshort, Option.some.injEq]
    constructor
    · rintro rfl
      refine ⟨[], seen, rfl, ?_, rfl⟩
      rcases seen with _ | ⟨a, _ | ⟨b, rest⟩⟩
      · simp
      · simp
      · exact (hshort a b rest rfl).elim
    · rintro ⟨bits, rest, rfl, -, rfl⟩
      cases bits with
      | nil => rfl
      | cons bit bits => cases bit <;> exact (hshort _ _ _ rfl).elim

/-! ## Bits as a number -/

theorem toNat_shiftIn {word : UInt16} {n : ℕ} (hn : n < 16) (h : word.toNat < 2 ^ n) (bit : Bool) :
    (shiftIn word bit).toNat = 2 * word.toNat + bit.toNat := by
  have hlt : word.toNat < 2 ^ 15 :=
    Nat.lt_of_lt_of_le h (Nat.pow_le_pow_right Nat.two_pos (Nat.le_of_lt_succ hn))
  cases bit <;> simp [shiftIn] <;> omega

theorem shiftIn_lt {word : UInt16} {n : ℕ} (hn : n < 16) (h : word.toNat < 2 ^ n) (bit : Bool) :
    (shiftIn word bit).toNat < 2 ^ (n + 1) := by
  have hbit : bit.toNat ≤ 1 := Bool.toNat_le bit
  rw [toNat_shiftIn hn h, Nat.pow_succ]
  omega

/-- A number grows by one place for each bit that is shifted in. -/
theorem foldl_shiftIn_lt {word : UInt16} {bits : List Bool} {n : ℕ} (hn : n + bits.length ≤ 16)
    (h : word.toNat < 2 ^ n) : (bits.foldl shiftIn word).toNat < 2 ^ (n + bits.length) := by
  induction bits generalizing word n with
  | nil => exact h
  | cons bit bits ih =>
    rw [List.length_cons] at hn ⊢
    have hlt := ih (n := n + 1) (by omega) (shiftIn_lt (by omega) h bit)
    rwa [Nat.add_right_comm] at hlt

/-- Equally many bits that shift in to the same number are the same, unless a bit was lost at the
upper end. -/
theorem foldl_shiftIn_inj {word word' : UInt16} {bits bits' : List Bool} {n : ℕ}
    (hlen : bits.length = bits'.length) (hn : n + bits.length ≤ 16) (h : word.toNat < 2 ^ n)
    (h' : word'.toNat < 2 ^ n) (heq : bits.foldl shiftIn word = bits'.foldl shiftIn word') :
    word = word' ∧ bits = bits' := by
  induction bits generalizing word word' bits' n with
  | nil =>
    obtain rfl := List.length_eq_zero_iff.1 hlen.symm
    exact ⟨heq, rfl⟩
  | cons bit bits ih =>
    obtain ⟨bit', bits', rfl⟩ := List.exists_cons_of_length_eq_add_one hlen.symm
    rw [List.length_cons] at hn
    have hroom : n < 16 := by omega
    -- The rest of the bits tells the numbers with one more place apart.
    obtain ⟨hword, rfl⟩ := ih (n := n + 1) (by simpa using hlen) (by omega) (shiftIn_lt hroom h bit)
      (shiftIn_lt hroom h' bit') heq
    have hnat := congrArg UInt16.toNat hword
    rw [toNat_shiftIn hroom h, toNat_shiftIn hroom h'] at hnat
    have hbit : bit = bit' := by cases bit <;> cases bit' <;> simp_all <;> omega
    subst hbit
    exact ⟨UInt16.toNat_inj.1 (by omega), rfl⟩

/-- The bits on a card are those of its barcode. -/
theorem foldl_shiftIn_bits (c : CardCode) : c.bits.foldl shiftIn 0 = c.barcode :=
  CardCode.forall_of_fin (P := fun c => c.bits.foldl shiftIn 0 = c.barcode) (by decide +kernel) c

/-- Nine bits are a barcode of a code exactly if they are the bits on its card. -/
theorem ofBarcode?_foldl_shiftIn_eq_some_iff {bits : List Bool} {c : CardCode}
    (hlen : bits.length = 9) :
    CardCode.ofBarcode? (bits.foldl shiftIn 0) = some c ↔ bits = c.bits := by
  constructor
  · intro h
    have hlt : (bits.foldl shiftIn 0).toNat < 2 ^ (0 + bits.length) :=
      foldl_shiftIn_lt (by omega) (by decide)
    rw [Nat.zero_add, hlen] at hlt
    have heq : bits.foldl shiftIn 0 = c.bits.foldl shiftIn 0 :=
      (CardCode.barcode_of_ofBarcode? hlt h).trans (foldl_shiftIn_bits c).symm
    exact (foldl_shiftIn_inj (n := 0) hlen (by omega) (by decide) (by decide) heq).2
  · rintro rfl
    rw [foldl_shiftIn_bits, CardCode.ofBarcode?_barcode]

/-! ## What decodes -/

/-- A list decodes to a code exactly if it shows the pairs of the card from its second level on. -/
theorem decode_eq_some_iff {seen : List Bool} {c : CardCode} :
    decode seen = some c ↔ 19 ≤ seen.length ∧ (seen.drop 1).take 18 = c.bits.flatMap halves := by
  by_cases hlen : seen.length < 19
  · rw [decode, if_pos hlen]
    simp only [reduceCtorEq, false_iff]
    exact fun h => Nat.not_le_of_lt hlen h.1
  · have hle : 19 ≤ seen.length := Nat.le_of_not_lt hlen
    rw [decode, if_neg hlen, Option.bind_eq_some_iff]
    constructor
    · rintro ⟨word, hread, hcode⟩
      obtain ⟨bits, rest, hpairs, hrest, rfl⟩ := readPairs_eq_some_iff.1 hread
      -- Eighteen levels leave none alone after the pairs.
      have hcount := congrArg List.length hpairs
      rw [List.length_append, length_flatMap_halves, List.length_take, List.length_drop] at hcount
      have hnine : bits.length = 9 ∧ rest.length = 0 := by omega
      obtain rfl := List.length_eq_zero_iff.1 hnine.2
      rw [ofBarcode?_foldl_shiftIn_eq_some_iff hnine.1] at hcode
      exact ⟨hle, by rw [hpairs, hcode, List.append_nil]⟩
    · intro h
      refine ⟨_, readPairs_eq_some_iff.2 ⟨c.bits, [], ?_, by simp, rfl⟩, ?_⟩
      · rw [h.2, List.append_nil]
      · exact (ofBarcode?_foldl_shiftIn_eq_some_iff c.length_bits).2 rfl

/-- The level before the pairs and the levels after them make no difference. -/
theorem decode_cons (first first' : Bool) (seen : List Bool) :
    decode (first :: seen) = decode (first' :: seen.take 18) := by
  have hlen : min 18 seen.length + 1 < 19 ↔ seen.length + 1 < 19 := by omega
  simp [decode, hlen, List.take_take]

end Swipe

namespace Scanner

/-! ## What the sensor sees -/

/-- What the sensor sees until the scanner has been ticked some times. -/
def samples : ℕ → Scanner → List Bool
  | 0, _ => []
  | k + 1, s => s.sense :: samples k s.tick

theorem samples_eq_map (k : ℕ) (s : Scanner) :
    samples k s = (List.range k).map fun i => sense (tick^[i] s) := by
  induction k generalizing s with
  | zero => rfl
  | succ k ih =>
    rw [samples, ih, List.range_succ_eq_map, List.map_cons, List.map_map]
    rfl

/-- Looking longer shows the same levels first. -/
theorem take_samples {n k : ℕ} (h : n ≤ k) (s : Scanner) : (samples k s).take n = samples n s := by
  rw [samples_eq_map, samples_eq_map, ← List.map_take, List.take_range, Nat.min_eq_left h]

/-- At the start of a swipe the levels of the card are to be seen. -/
theorem samples_loaded (c : CardCode) : samples Swipe.halfBits (loaded c) = Swipe.levels c := by
  rw [samples_eq_map, ← Swipe.map_range'_levels c 0, List.range_eq_range']
  exact List.map_congr_left fun i _ => sense_iterate_tick c i

/-- Once the pairs of a card have been seen they decode to its code, however long one looks on. -/
theorem decode_samples_loaded (c : CardCode) {k : ℕ} (hk : 19 ≤ k) :
    Swipe.decode (samples k (loaded c)) = some c := by
  obtain ⟨k, rfl⟩ := Nat.exists_eq_add_of_le' (show 1 ≤ k by omega)
  have htake : (samples k (loaded c).tick).take 18 = (samples 19 (loaded c).tick).take 18 := by
    rw [take_samples (by omega), take_samples (by omega)]
  calc Swipe.decode (samples (k + 1) (loaded c))
      = Swipe.decode (true :: (samples k (loaded c).tick).take 18) := Swipe.decode_cons _ _ _
    _ = Swipe.decode (true :: (samples 19 (loaded c).tick).take 18) := by rw [htake]
    _ = Swipe.decode (samples Swipe.halfBits (loaded c)) := (Swipe.decode_cons _ _ _).symm
    _ = some c := by rw [samples_loaded, Swipe.decode_levels]

end Scanner

namespace Swipe

/-- Exactly the swipes of a card decode to its code. A list of levels decodes to a code if there are
at least 19 of them and those from the second to the 19th show the bits of the card, each 1 as
bright and dark and each 0 as dark and bright; if it is so for no code, the list does not decode.
The other levels make no difference. What the sensor sees of a swipe decodes to the code of the card
as soon as the scanner has been ticked 18 times, and ever after; a swipe can be started, whatever is
logged, unless more half-bits seem to be left of the one before than a swipe has. -/
theorem decodes_exactly_swipes :
    (∀ seen (c : CardCode), decode seen = some c ↔
      19 ≤ seen.length ∧ (seen.drop 1).take 18 = c.bits.flatMap halves) ∧
    (∀ seen, (∀ c : CardCode,
      ¬(19 ≤ seen.length ∧ (seen.drop 1).take 18 = c.bits.flatMap halves)) → decode seen = none) ∧
    (∀ first first' seen, decode (first :: seen) = decode (first' :: seen.take 18)) ∧
    (∀ c s s', Scanner.swipe c s = .ok () s' →
      ∀ k, 19 ≤ k → decode (Scanner.samples k s'.device) = some c) ∧
    ∀ c (s : Observed Scanner), s.device.remaining ≤ halfBits.toUInt8 →
      ∃ s', Scanner.swipe c s = .ok () s' := by
  refine ⟨fun seen c => decode_eq_some_iff, fun seen h => ?_, decode_cons, ?_, ?_⟩
  · rw [Option.eq_none_iff_forall_ne_some]
    exact fun c hc => h c (decode_eq_some_iff.1 hc)
  · intro c s s' hswipe k hk
    rw [Scanner.swipe_eq_ok hswipe]
    exact Scanner.decode_samples_loaded c hk
  · intro c s hs
    obtain ⟨log, hswipe⟩ := Scanner.swipe_eq_ok_of_le c hs
    exact ⟨_, hswipe⟩

/-- A card that is swiped while another one is still passing is read, and a pair of two bright
half-bits is not. -/
theorem second_swipe_decodes :
    (∃ s', Scanner.swipe (.truncate 0x37) ⟨(Scanner.loaded (.truncate 0x23)).tick, .fresh⟩ =
        .ok () s' ∧
      decode (Scanner.samples 50 s'.device) = some (.truncate 0x37)) ∧
    decode (List.replicate 30 true) = none := by
  obtain ⟨-, hnone, -, hdecode, hstart⟩ := decodes_exactly_swipes
  obtain ⟨s', hs'⟩ := hstart (.truncate 0x37)
    ⟨(Scanner.loaded (.truncate 0x23)).tick, .fresh⟩ (by decide)
  refine ⟨⟨s', hs', hdecode _ _ _ hs' 50 (by decide)⟩, hnone _ fun c h => ?_⟩
  have hpair := congrArg (List.take 2) h.2
  simp [CardCode.bits, halves] at hpair

end Swipe

end CardComputer
