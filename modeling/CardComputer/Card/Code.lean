import CardComputer.Json.Stored
import CardComputer.Text.Hex

/-!
# Card codes

Each card carries a barcode of nine bits. The first is 0 and the last is 1 on every card; the seven
bits between them are the card's code. The printed codes have an odd number of ones, but any seven
bits are a code: judging parity is left to the game program.
-/

namespace CardComputer

/-- The seven bits that tell cards apart. -/
structure CardCode where
  /-- The bits as a number. -/
  value : UInt8
  /-- There are only seven of them. -/
  value_lt : value < 0x80
deriving DecidableEq

namespace CardCode

/-- The code with a number, if seven bits suffice for it. -/
def ofByte? (b : UInt8) : Option CardCode :=
  if h : b < 0x80 then some ⟨b, h⟩ else none

/-- The lower seven bits of a byte. -/
def truncate (b : UInt8) : CardCode :=
  ⟨b % 0x80, by
    rw [UInt8.lt_iff_toNat_lt, UInt8.toNat_mod]
    exact Nat.mod_lt _ (by decide)⟩

/-- The report of a byte that is no code. -/
def invalidMessage (b : UInt8) : String :=
  let digits := Text.Hex.lower 2 b.toNat
  s!"Invalid card code 0x{digits} (must be 0..=127)"

/-- The nine bits on the card, the first one the most significant. -/
def barcode (c : CardCode) : UInt16 :=
  c.value.toUInt16 * 2 + 1

/-- The code on a card whose first and last bit are as they should be. -/
def ofBarcode? (bits : UInt16) : Option CardCode :=
  if bits &&& 0x101 = 0x001 then some (truncate (bits / 2).toUInt8) else none

/-- The first bit of the code. -/
def parityBit (c : CardCode) : Bool :=
  c.value.toNat.testBit 6

/-- The number of ones in the code. -/
def weight (c : CardCode) : Nat :=
  (List.range 7).countP fun i => c.value.toNat.testBit i

/-- Whether the number of ones is odd, as on every printed card. -/
def hasValidParity (c : CardCode) : Bool :=
  c.weight % 2 == 1

theorem ofByte?_value (c : CardCode) : ofByte? c.value = some c := by
  simp [ofByte?, c.value_lt]

/-- The code with a number that was stored. -/
def ofStored (b : UInt8) : Except Json.DecodeError CardCode :=
  match ofByte? b with
  | some c => .ok c
  | none => .error (.refused (invalidMessage b))

instance : Json.Stored CardCode where
  encode c := Json.encode c.value
  decode v := Json.decode v >>= ofStored

instance : Json.LawfulStored CardCode where
  decode_encode c := by
    show (Json.decode (Json.encode c.value) >>= ofStored) = _
    rw [Json.decode_encode]
    show ofStored c.value = _
    simp [ofStored, ofByte?_value]

instance : Json.NeverNull CardCode where
  encode_ne_null c := Json.NeverNull.encode_ne_null c.value

end CardCode

end CardComputer
