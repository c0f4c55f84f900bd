import CardComputer.Json.Stored
import CardComputer.Panel.Lines

/-!
# The keypad

The 31 keys sit at the crossings of eight columns and four rows. A column that is strobed lets its
held keys pull down their row lines, so the row lines read low for a held key and high otherwise.
-/

namespace CardComputer

/-- The keys. -/
inductive Key where
  | ace
  | king
  | queen
  | jack
  | ten
  | nine
  | eight
  | seven
  | six
  | five
  | four
  | three
  | two
  | one
  | p
  | noTrump
  | enter
  | score
  | player
  | clear
  | double
  | value
  | speaker
  | playBack
  | convention
  | bridge
  | dealer
  | spades
  | hearts
  | diamonds
  | clubs
deriving DecidableEq

namespace Key

/-- All keys. -/
def all : List Key :=
  [.ace, .king, .queen, .jack, .ten, .nine, .eight, .seven, .six, .five, .four, .three, .two,
    .one, .p, .noTrump, .enter, .score, .player, .clear, .double, .value, .speaker, .playBack,
    .convention, .bridge, .dealer, .spades, .hearts, .diamonds, .clubs]

/-- The name of a key. -/
def name : Key → String
  | ace => "Ace"
  | king => "King"
  | queen => "Queen"
  | jack => "Jack"
  | ten => "Ten"
  | nine => "Nine"
  | eight => "Eight"
  | seven => "Seven"
  | six => "Six"
  | five => "Five"
  | four => "Four"
  | three => "Three"
  | two => "Two"
  | one => "One"
  | p => "P"
  | noTrump => "NoTrump"
  | enter => "Enter"
  | score => "Score"
  | player => "Player"
  | clear => "Clear"
  | double => "Double"
  | value => "Value"
  | speaker => "Speaker"
  | playBack => "PlayBack"
  | convention => "Convention"
  | bridge => "Bridge"
  | dealer => "Dealer"
  | spades => "Spades"
  | hearts => "Hearts"
  | diamonds => "Diamonds"
  | clubs => "Clubs"

instance : Json.Named Key := ⟨all, name⟩

instance : Json.LawfulNamed Key where
  find?_name a := by cases a <;> rfl

/-- The column and the row of a key. -/
def position : Key → Fin 8 × Fin 4
  | ace => (0, 0)
  | king => (1, 0)
  | queen => (2, 0)
  | jack => (3, 0)
  | ten => (0, 1)
  | nine => (1, 1)
  | eight => (2, 1)
  | seven => (3, 1)
  | six => (0, 2)
  | five => (1, 2)
  | four => (2, 2)
  | three => (3, 2)
  | two => (0, 3)
  | one => (1, 3)
  | p => (2, 3)
  | noTrump => (3, 3)
  | enter => (4, 0)
  | score => (4, 1)
  | player => (4, 2)
  | clear => (5, 0)
  | double => (5, 1)
  | value => (5, 2)
  | speaker => (6, 0)
  | playBack => (6, 1)
  | convention => (6, 2)
  | bridge => (7, 1)
  | dealer => (7, 2)
  | spades => (4, 3)
  | hearts => (5, 3)
  | diamonds => (6, 3)
  | clubs => (7, 3)

/-- The bit of a key in its column. -/
def rowMask (k : Key) : UInt8 :=
  1 <<< UInt8.ofNat k.position.2

end Key

/-- The keys that are held. -/
structure Keypad where
  /-- For each column the rows of its held keys, row 0 the lowest bit. -/
  columns : Vector UInt8 8
deriving DecidableEq

namespace Keypad

/-- No key held. -/
def released : Keypad := ⟨Vector.replicate 8 0⟩

/-- Presses or releases a key. -/
def setKey (p : Keypad) (k : Key) (pressed : Bool) : Keypad :=
  let column := k.position.1
  let rows := p.columns[column]
  let rows := if pressed then rows ||| k.rowMask else rows &&& ~~~k.rowMask
  ⟨p.columns.set column rows⟩

/-- Whether a key is held. -/
def isPressed (p : Keypad) (k : Key) : Bool :=
  p.columns[k.position.1] &&& k.rowMask != 0

/-- The rows held in a column; there are none past the last column. -/
def column (p : Keypad) (n : Nat) : UInt8 :=
  p.columns[n]?.getD 0

/-- The row lines while no held key is strobed. -/
def idleRows : UInt8 := 0x0F

/-- The row lines while a byte drives the select lines. A held key in a strobed column reads low. -/
def rows (p : Keypad) (select : UInt8) : UInt8 :=
  let held := (SelectLines.asserted select).foldl (fun held c => held ||| p.columns[c]) 0
  ~~~held &&& idleRows

/-- How a keypad is read. -/
def record : Json.Record Keypad :=
  (Json.Record.of mk).field "columns"

instance : Json.Stored Keypad where
  encode p := .object [("columns", Json.encode p.columns)]
  decode := record.decode "Keypad"

instance : Json.LawfulStored Keypad where
  decode_encode _ := Json.Record.decode_object (by simp [record])

end Keypad

end CardComputer
