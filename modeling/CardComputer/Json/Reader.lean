import CardComputer.Json.Stored
import CardComputer.Json.Token

/-!
# Reading JSON values

A value is read token by token: `Reading.step` takes one token, and a text is read by folding `step`
over its tokens. The state holds the lists and objects that are still open, innermost first.

The same steps serve a reader that passes over a value (`Care.passed`): it takes any number, any
quoted text and any depth of nesting, since it never looks at the value.
-/

namespace CardComputer.Json

/-- Whether a value is wanted, or only passed over. -/
inductive Care where
  | wanted
  | passed
deriving DecidableEq

/-- The greatest number of lists and objects that may be open at once in a wanted value. -/
def maxDepth : Nat := 127

namespace Care

/-- The value of a number token. -/
def number (care : Care) (n : Numeral) : Except Trouble Json :=
  match care, n.value? with
  | wanted, some k => .ok (.number k)
  | wanted, none => .error .malformed
  | passed, _ => .ok .null

/-- The value of a text token. -/
def text (care : Care) (s : Option String) : Except Trouble String :=
  match care, s with
  | _, some s => .ok s
  | wanted, none => .error .malformed
  | passed, none => .ok ""

/-- The verdict on a token that cannot be completed. -/
def verdict (care : Care) (onWanted onPassed : Trouble) : Trouble :=
  match care with
  | wanted => onWanted
  | passed => onPassed

/-- Whether another list or object may be opened inside `depth` open ones. -/
def allowsDepth (care : Care) (depth : Nat) : Bool :=
  care == passed || depth < maxDepth

end Care

/-- A list or object that is still open. -/
inductive Frame where
  /-- The items so far, newest first. -/
  | list (items : List Json)
  /-- The members so far, and the key whose value is being read. -/
  | object (members : List (String × Json)) (key : String)

/-- What may come next. -/
inductive Reading where
  | value (frames : List Frame)
  /-- The first item of a list, or its end. -/
  | listStart (frames : List Frame)
  /-- The first key of an object, or its end. -/
  | objectStart (frames : List Frame)
  | key (frames : List Frame) (members : List (String × Json))
  | colon (frames : List Frame) (members : List (String × Json)) (key : String)
  /-- Whatever follows a value. -/
  | after (frames : List Frame) (value : Json)

namespace Reading

/-- The state before a value. -/
def start : Reading := .value []

/-- Takes the first token of a value. -/
def open? (care : Care) (frames : List Frame) : Token → Except Trouble Reading
  | .null => .ok (.after frames .null)
  | .bool b => .ok (.after frames (.bool b))
  | .number n => (care.number n).map (.after frames)
  | .text s => (care.text s).map fun s => .after frames (.text s)
  | .openList =>
    if care.allowsDepth frames.length then .ok (.listStart frames) else .error .malformed
  | .openObject =>
    if care.allowsDepth frames.length then .ok (.objectStart frames) else .error .malformed
  | .brokenText onWanted onPassed => .error (care.verdict onWanted onPassed)
  | .brokenScalar onWanted onPassed => .error (care.verdict onWanted onPassed)
  | _ => .error .malformed

/-- Takes a key. -/
def key? (care : Care) (frames : List Frame) (members : List (String × Json)) :
    Token → Except Trouble Reading
  | .text s => (care.text s).map (.colon frames members)
  | .brokenText onWanted onPassed => .error (care.verdict onWanted onPassed)
  | _ => .error .malformed

/-- Takes one token. -/
def step (care : Care) : Reading → Token → Except Trouble Reading
  | .value frames, t => open? care frames t
  -- Before the first item and the first key the end may come; after a comma it may not.
  | .listStart frames, .closeList => .ok (.after frames (.list []))
  | .listStart frames, t => open? care (.list [] :: frames) t
  | .objectStart frames, .closeObject => .ok (.after frames (.object []))
  | .objectStart frames, t => key? care frames [] t
  | .key frames members, t => key? care frames members t
  | .colon frames members k, .colon => .ok (.value (.object members k :: frames))
  | .after (.list items :: frames) v, .comma => .ok (.value (.list (v :: items) :: frames))
  | .after (.list items :: frames) v, .closeList => .ok (.after frames (.list (v :: items).reverse))
  | .after (.object members k :: frames) v, .comma => .ok (.key frames (setMember k v members))
  | .after (.object members k :: frames) v, .closeObject =>
    .ok (.after frames (.object (setMember k v members)))
  | _, _ => .error .malformed

/-- The value, if it is complete and nothing is open. -/
def value? : Reading → Option Json
  | .after [] v => some v
  | _ => none

end Reading

/-- The value that tokens spell. -/
def ofTokens (tokens : List Token) : Except Trouble Json := do
  match (← tokens.foldlM (Reading.step .wanted) .start).value? with
  | some v => .ok v
  | none => .error .endOfText

/-- The value that a text spells. -/
def ofText (s : String) : Except Trouble Json :=
  ofTokens (Token.ofChars s.toList)

/-- What can go wrong when a text is read for content of a certain form. -/
inductive ReadError where
  /-- The text has no JSON form. -/
  | form (trouble : Trouble)
  /-- The form is right and the content is not. -/
  | content (error : DecodeError)

/-- What the first token of a value shows to a reader that expected another kind of value. -/
def Token.found : Token → Except Trouble Found
  | .null => .ok .null
  | .bool b => .ok (.bool b)
  | .number n =>
    match n.value? with
    | some k => .ok (.number k)
    | none => .error .malformed
  | .text (some s) => .ok (.text s)
  | .openList => .ok .sequence
  | .openObject => .ok .map
  | .brokenText onWanted _ => .error onWanted
  | .brokenScalar onWanted _ => .error onWanted
  | _ => .error .malformed

/-- The error of a token that starts a value of another kind than expected. -/
def Token.unexpected (t : Token) (expected : String) : ReadError :=
  match t.found with
  | .ok found => .content (.wrongType found expected)
  | .error trouble => .form trouble

/-- The word that a number token spells. -/
def Token.wordOf {α : Type} [Stored α] (expected : String) : Token → Except ReadError α
  | .number n =>
    match n.value? with
    | some k => (decode (.number k)).mapError .content
    | none => .error (.form .malformed)
  | t => .error (t.unexpected expected)

end CardComputer.Json
