import CardComputer.Json.Basic

/-!
# Writing JSON values

`Json.render` writes a value without white space. Text is escaped only where the format requires it:
quotes, backslashes and control characters.
-/

namespace CardComputer.Json

/-- The short escape of a control character, if it has one. -/
def controlEscape? (n : Nat) : Option Char :=
  match n with
  | 8 => some 'b'
  | 9 => some 't'
  | 10 => some 'n'
  | 12 => some 'f'
  | 13 => some 'r'
  | _ => none

/-- One character inside quotes. -/
def escapeChar (c : Char) : List Char :=
  if c = '"' then ['\\', '"']
  else if c = '\\' then ['\\', '\\']
  else if c.toNat < 32 then
    match controlEscape? c.toNat with
    | some e => ['\\', e]
    | none => '\\' :: 'u' :: Text.Hex.digits 4 c.toNat
  else [c]

/-- Appends a text between quotes. -/
def writeText (out : String) (s : String) : String :=
  (s.foldl (fun out c => (escapeChar c).foldl String.push out) (out.push '"')).push '"'

/-- The text of a number. -/
def renderNumber : Number → String
  | .whole k => toString k
  | .real x => realText x

mutual

/-- Appends the text of a value. -/
def write (out : String) : Json → String
  | .null => out ++ "null"
  | .bool true => out ++ "true"
  | .bool false => out ++ "false"
  | .number n => out ++ renderNumber n
  | .text s => writeText out s
  | .list items => (writeItems (out.push '[') items).push ']'
  | .object members => (writeMembers (out.push '\x7b') members).push '\x7d'

/-- Appends values with commas between them. -/
def writeItems (out : String) : List Json → String
  | [] => out
  | [v] => write out v
  | v :: w :: rest => writeItems ((write out v).push ',') (w :: rest)

/-- Appends a key, a colon and a value. -/
def writeMember (out : String) : String × Json → String
  | (key, v) => write ((writeText out key).push ':') v

/-- Appends members with commas between them. -/
def writeMembers (out : String) : List (String × Json) → String
  | [] => out
  | [m] => writeMember out m
  | m :: n :: rest => writeMembers ((writeMember out m).push ',') (n :: rest)

end

/-- The text of a value. -/
def render (v : Json) : String := write "" v

end CardComputer.Json
