import CardComputer.Card.Code
import CardComputer.Json.Reader

/-!
# Card codes as texts

A card code is written as a number. The number is judged before the rest of the text is looked at.
-/

namespace CardComputer.CardCode

/-- The card code that tokens spell. -/
def ofTokens : List Json.Token → Except Json.ReadError CardCode
  | [] => .error (.form .endOfText)
  | t :: rest => do
    let c ← (ofStored (← Json.Token.wordOf "u8" t)).mapError .content
    if rest.isEmpty then return c else throw (.form .malformed)

/-- The card code that a text spells. -/
def ofText (s : String) : Except Json.ReadError CardCode :=
  ofTokens (Json.Token.ofChars s.toList)

end CardComputer.CardCode
