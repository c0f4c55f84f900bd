import CardComputer.Json.Stored

/-!
# Segments

A grid of the display shows one digit of fourteen segments, A to N, and one lamp. What it shows is a
word of sixteen bits that is written four bits at a time through the ports P4 to P7. The segments
are not wired to the bits in the order of their letters; `Segment.rawBit` is the wiring.
-/

namespace CardComputer

/-- The ports through which the segment word is written. -/
inductive NibblePort where
  | p4
  | p5
  | p6
  | p7
deriving DecidableEq

namespace NibblePort

/-- The ports, that of the lowest four bits first. -/
def all : List NibblePort := [p4, p5, p6, p7]

/-- The place of a port's four bits in the segment word, the lowest first. -/
def index : NibblePort → Nat
  | p4 => 0
  | p5 => 1
  | p6 => 2
  | p7 => 3

/-- The port of a place. -/
def ofIndex? : Nat → Option NibblePort
  | 0 => some p4
  | 1 => some p5
  | 2 => some p6
  | 3 => some p7
  | _ => none

/-- The name of a port. -/
def name : NibblePort → String
  | p4 => "P4"
  | p5 => "P5"
  | p6 => "P6"
  | p7 => "P7"

instance : Json.Named NibblePort := ⟨all, name⟩

instance : Json.LawfulNamed NibblePort where
  find?_name a := by cases a <;> rfl

/-- The port that the lower two bits of a byte select. -/
def ofBits (b : UInt8) : NibblePort :=
  match b.toNat % 4 with
  | 0 => p4
  | 1 => p5
  | 2 => p6
  | _ => p7

/-- How far a port's four bits are shifted in the segment word. -/
def shift (port : NibblePort) : UInt16 := 4 * UInt16.ofNat port.index

/-- The four bits of a port. -/
def extract (port : NibblePort) (word : UInt16) : UInt8 :=
  ((word >>> port.shift) &&& 0xF).toUInt8

/-- The word with a port's four bits replaced by the lower four of a byte. -/
def insert (port : NibblePort) (value : UInt8) (word : UInt16) : UInt16 :=
  (word &&& ~~~(0xF <<< port.shift)) ||| ((value.toUInt16 &&& 0xF) <<< port.shift)

/-- A port holds the lower four bits of what was written to it. -/
theorem extract_insert_self (port : NibblePort) (value : UInt8) (word : UInt16) :
    port.extract (port.insert value word) = value &&& 0xF := by
  apply UInt8.toBitVec_inj.1
  cases port
  all_goals
    simp only [extract, insert, shift, index, UInt16.toBitVec_toUInt8, UInt16.toBitVec_and,
      UInt16.toBitVec_or, UInt16.toBitVec_shiftRight, UInt16.toBitVec_shiftLeft,
      UInt8.toBitVec_and, UInt16.toBitVec_not, UInt8.toBitVec_toUInt16]
    ext i hi
    have : i = 0 ∨ i = 1 ∨ i = 2 ∨ i = 3 ∨ i = 4 ∨ i = 5 ∨ i = 6 ∨ i = 7 := by omega
    rcases this with rfl | rfl | rfl | rfl | rfl | rfl | rfl | rfl <;> simp

/-- Writing a port leaves the other ports as they are. -/
theorem extract_insert_of_ne {port other : NibblePort} (h : other ≠ port) (value : UInt8)
    (word : UInt16) : other.extract (port.insert value word) = other.extract word := by
  apply UInt8.toBitVec_inj.1
  cases port <;> cases other <;> try exact absurd rfl h
  all_goals
    simp only [extract, insert, shift, index, UInt16.toBitVec_toUInt8, UInt16.toBitVec_and,
      UInt16.toBitVec_or, UInt16.toBitVec_shiftRight, UInt16.toBitVec_shiftLeft,
      UInt16.toBitVec_not, UInt8.toBitVec_toUInt16]
    ext i hi
    have : i = 0 ∨ i = 1 ∨ i = 2 ∨ i = 3 ∨ i = 4 ∨ i = 5 ∨ i = 6 ∨ i = 7 := by omega
    rcases this with rfl | rfl | rfl | rfl | rfl | rfl | rfl | rfl <;> simp

end NibblePort

/-- The segments of a digit. -/
inductive Segment where
  | a
  | b
  | c
  | d
  | e
  | f
  | g
  | h
  | i
  | j
  | k
  | l
  | m
  | n
deriving DecidableEq

namespace Segment

/-- The segments in the order of their letters. -/
def all : List Segment := [a, b, c, d, e, f, g, h, i, j, k, l, m, n]

/-- The letter of a segment. -/
def letter : Segment → Char
  | a => 'A'
  | b => 'B'
  | c => 'C'
  | d => 'D'
  | e => 'E'
  | f => 'F'
  | g => 'G'
  | h => 'H'
  | i => 'I'
  | j => 'J'
  | k => 'K'
  | l => 'L'
  | m => 'M'
  | n => 'N'

/-- The bit of the segment word that a segment is wired to. -/
def rawBit : Segment → Nat
  | m => 0
  | l => 1
  | n => 2
  | e => 3
  | d => 4
  | i => 5
  | k => 6
  | j => 7
  | a => 8
  | b => 9
  | f => 10
  | g => 11
  | c => 14
  | h => 15

/-- The bit of the segment word that the lamp is wired to. -/
def lampBit : Nat := 12

/-- Whether a word lights a segment. -/
def isLit (word : UInt16) (s : Segment) : Bool :=
  word.toNat.testBit s.rawBit

/-- Whether a word lights the lamp. -/
def isLampLit (word : UInt16) : Bool :=
  word.toNat.testBit lampBit

/-- The number whose bit `i` is the `i`-th of the given bits. -/
def ofBits (bits : List Bool) : Nat :=
  bits.foldr (fun b n => 2 * n + b.toNat) 0

/-- The segments that a word lights as a mask, segment A the lowest bit. -/
def mask (word : UInt16) : Nat :=
  ofBits (all.map (isLit word))

/-- The letters of the segments that a word lights. -/
def litLetters (word : UInt16) : String :=
  String.ofList ((all.filter (isLit word)).map letter)

end Segment

end CardComputer
