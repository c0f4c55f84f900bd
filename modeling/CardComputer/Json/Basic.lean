import CardComputer.Json.Numeral
import CardComputer.Text.Quoted

/-!
# JSON values

`Json` is a value of the data format of save states and configurations. Objects are lists of
members with distinct keys; setting a key again replaces its value in place. `DecodeError` lists
what can be wrong with a value that was expected to have a certain form.
-/

namespace CardComputer

/-- A JSON value. -/
inductive Json where
  | null
  | bool (value : Bool)
  | number (value : Json.Number)
  | text (value : String)
  | list (items : List Json)
  | object (members : List (String × Json))

namespace Json

/-- A whole number as a JSON value. -/
def whole (k : Int) : Json := number (.whole k)

/-- The value of the first member with a key. -/
def find? (key : String) (members : List (String × Json)) : Option Json :=
  (members.find? fun m => m.1 == key).map Prod.snd

/-- Members with one key set: its value is replaced in place, or the member goes to the end. -/
def setMember (key : String) (value : Json) : List (String × Json) → List (String × Json)
  | [] => [(key, value)]
  | (k, v) :: rest =>
    if k == key then (k, value) :: rest else (k, v) :: setMember key value rest

/-- The value under a key, `null` where there is none. -/
def get (key : String) : Json → Json
  | object members => (find? key members).getD null
  | _ => null

/-- What stands where something else was expected. -/
inductive Found where
  | null
  | bool (value : Bool)
  | number (value : Number)
  | text (value : String)
  | sequence
  | map
  | plainVariant
deriving Inhabited

/-- The kind of a value, with the value itself if it is a scalar. -/
def found : Json → Found
  | .null => .null
  | .bool b => .bool b
  | .number n => .number n
  | .text s => .text s
  | .list _ => .sequence
  | .object _ => .map

namespace Found

/-- The words for a value in a message. -/
def describe : Found → String
  | null => "null"
  | bool b => s!"boolean `{b}`"
  | number (.whole k) => s!"integer `{k}`"
  | number (.real x) => s!"floating point `{realText x}`"
  | text s => "string " ++ Text.quoted s
  | sequence => "sequence"
  | map => "map"
  | plainVariant => "unit variant"

end Found

/-- What can be wrong with a value. -/
inductive DecodeError where
  /-- A value of another type than expected. -/
  | wrongType (found : Found) (expected : String)
  /-- The right type, but no admissible value. -/
  | wrongValue (found : Found) (expected : String)
  /-- A list or tuple with another number of elements than expected. -/
  | wrongLength (length : Nat) (expected : String)
  /-- A name that is none of the known ones. -/
  | unknownVariant (name : String) (known : List String)
  /-- An object without a field that has to be there. -/
  | missingField (name : String)
  /-- An object with the same field twice. -/
  | duplicateField (name : String)
  /-- A well-formed value that its type refuses. -/
  | refused (reason : String)
deriving Inhabited

namespace DecodeError

/-- A list of names in a message. -/
def listNames : List String → String
  | [] => "there are no variants"
  | [a] => s!"expected `{a}`"
  | [a, b] => s!"expected `{a}` or `{b}`"
  | names => "expected one of " ++ ", ".intercalate (names.map fun n => s!"`{n}`")

/-- The text that reports an error. -/
def message : DecodeError → String
  | wrongType found expected => s!"invalid type: {found.describe}, expected {expected}"
  | wrongValue found expected => s!"invalid value: {found.describe}, expected {expected}"
  | wrongLength length expected => s!"invalid length {length}, expected {expected}"
  | unknownVariant name known => s!"unknown variant `{name}`, {listNames known}"
  | missingField name => s!"missing field `{name}`"
  | duplicateField name => s!"duplicate field `{name}`"
  | refused reason => reason

end DecodeError

end Json

end CardComputer
