import CardComputer.Card.Code

/-!
# The deck

The 54 cards and the codes printed on them. Cards and codes are looked up in deck order; a joker
with another number than the two of the deck has no code.
-/

namespace CardComputer

/-- The suits, in deck order. -/
inductive Suit where
  | spades
  | hearts
  | clubs
  | diamonds
deriving DecidableEq

/-- The ranks of a suit, in deck order. -/
inductive Rank where
  | ace
  | two
  | three
  | four
  | five
  | six
  | seven
  | eight
  | nine
  | ten
  | jack
  | queen
  | king
deriving DecidableEq

/-- A playing card. -/
inductive Card where
  /-- A card of a suit. -/
  | suited (suit : Suit) (rank : Rank)
  /-- A joker, told apart by its number. -/
  | joker (number : UInt8)
deriving DecidableEq

instance : Json.Named Suit where
  all := [.spades, .hearts, .clubs, .diamonds]
  name
    | .spades => "Spades"
    | .hearts => "Hearts"
    | .clubs => "Clubs"
    | .diamonds => "Diamonds"

instance : Json.LawfulNamed Suit where
  find?_name a := by cases a <;> rfl

instance : Json.Named Rank where
  all := [.ace, .two, .three, .four, .five, .six, .seven, .eight, .nine, .ten, .jack, .queen, .king]
  name
    | .ace => "Ace"
    | .two => "Two"
    | .three => "Three"
    | .four => "Four"
    | .five => "Five"
    | .six => "Six"
    | .seven => "Seven"
    | .eight => "Eight"
    | .nine => "Nine"
    | .ten => "Ten"
    | .jack => "Jack"
    | .queen => "Queen"
    | .king => "King"

instance : Json.LawfulNamed Rank where
  find?_name a := by cases a <;> rfl

namespace Rank

/-- All ranks, the lowest first. -/
def all : List Rank := Json.Named.all

/-- The place of a rank among all ranks. -/
def position (r : Rank) : Nat := all.idxOf r

/-- Compares two ranks by their places. -/
def order (a b : Rank) : Ordering := compare a.position b.position

end Rank

namespace Card

/-- The names of the two kinds of cards. -/
def kinds : List String := ["Suited", "Joker"]

/-- The card of a kind with its details. -/
def ofVariant : String × Option Json → Except Json.DecodeError Card
  | ("Suited", payload) =>
    (Json.pairPayload "tuple variant Card::Suited" payload).map fun (s, r) => suited s r
  | ("Joker", payload) => (Json.payload payload).map joker
  | (kind, _) => .error (.unknownVariant kind kinds)

instance : Json.Stored Card where
  encode
    | suited s r => .object [("Suited", .list [Json.encode s, Json.encode r])]
    | joker n => .object [("Joker", Json.encode n)]
  decode v := Json.variantOf v >>= ofVariant

theorem ofVariant_suited (payload : Option Json) :
    ofVariant ("Suited", payload) =
      (Json.pairPayload "tuple variant Card::Suited" payload).map fun (s, r) => suited s r := rfl

theorem ofVariant_joker (payload : Option Json) :
    ofVariant ("Joker", payload) = (Json.payload payload).map joker := rfl

instance : Json.LawfulStored Card where
  decode_encode c := by
    cases c with
    | suited s r =>
      refine Json.variantOf_object_bind ?_
      rw [ofVariant_suited, Json.pairPayload_encode]
      rfl
    | joker n =>
      refine Json.variantOf_object_bind ?_
      rw [ofVariant_joker, Json.payload_encode]
      rfl

/-- The codes of a suit's cards, ace first. -/
def suitCodes : Suit → List UInt8
  | .spades => [0x37, 0x23, 0x6B, 0x13, 0x5B, 0x3B, 0x73, 0x07, 0x4F, 0x2F, 0x67, 0x1F, 0x57]
  | .hearts => [0x3D, 0x29, 0x61, 0x19, 0x51, 0x31, 0x79, 0x0D, 0x45, 0x25, 0x6D, 0x15, 0x5D]
  | .clubs => [0x34, 0x4A, 0x68, 0x49, 0x58, 0x38, 0x70, 0x43, 0x4C, 0x2C, 0x64, 0x1C, 0x54]
  | .diamonds => [0x3E, 0x2A, 0x62, 0x1A, 0x52, 0x32, 0x7A, 0x0E, 0x46, 0x26, 0x6E, 0x16, 0x5E]

/-- The codes of the first and the second joker. -/
def jokerCodes : List (Card × UInt8) := [(joker 1, 0x7C), (joker 2, 0x76)]

/-- All cards with their codes. -/
def deck : List (Card × CardCode) :=
  let suits := (Json.Named.all : List Suit).flatMap fun s =>
    List.zip (Rank.all.map (suited s)) (suitCodes s)
  (suits ++ jokerCodes).map fun (card, code) => (card, .truncate code)

/-- The code printed on a card. -/
def code? (card : Card) : Option CardCode :=
  (deck.find? fun entry => entry.1 == card).map Prod.snd

end Card

/-- The card with a code, if the code is printed on one. -/
def CardCode.card? (c : CardCode) : Option Card :=
  (Card.deck.find? fun entry => entry.2 == c).map Prod.fst

end CardComputer
