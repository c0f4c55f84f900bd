import CardComputer.Card.Code

/-!
# Swipes

A card that is pulled through the reader shows its nine bits as pairs of half-bits: a 1 is bright
and then dark, a 0 is dark and then bright. A swipe has 20 half-bits: one bright one before the nine
pairs and one bright one after them.

The scanner holds them in a shift register, the next half-bit lowest, where a one is dark.
-/

namespace CardComputer.Swipe

/-- The number of half-bits of a swipe. -/
def halfBits : Nat := 20

/-- The half-bits of one bit of the barcode, the first one lowest, where a one is dark. -/
def bitPair (bit : Bool) : UInt32 :=
  if bit then 0b10 else 0b01

/-- The half-bits of a card: the first bit of its barcode is read first, so it is shifted in
last. -/
def encode (c : CardCode) : UInt32 :=
  let pairs : UInt32 := (List.range 9).foldl
    (fun stream i => stream <<< 2 ||| bitPair (c.barcode.toNat.testBit i)) 0
  -- One bright half-bit goes before the pairs; the one after them is a zero above them.
  pairs <<< 1

/-- What the sensor sees of a card, half-bit by half-bit; true is bright. -/
def levels (c : CardCode) : List Bool :=
  (List.range halfBits).map fun k => !(encode c).toNat.testBit k

/-- Reads bits from pairs of half-bits, the first one most significant, unless a pair has two equal
halves. -/
def readPairs (bits : UInt16) : List Bool → Option UInt16
  | a :: b :: rest =>
    if a = b then none else readPairs (bits * 2 + if a then 1 else 0) rest
  | _ => some bits

/-- The code of the card that was seen. The half-bit before the pairs and everything after them is
not looked at. -/
def decode (seen : List Bool) : Option CardCode :=
  if seen.length < 19 then none
  else (readPairs 0 ((seen.drop 1).take 18)).bind CardCode.ofBarcode?

end CardComputer.Swipe
