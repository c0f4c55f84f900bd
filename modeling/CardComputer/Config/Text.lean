import CardComputer.Config.Basic
import CardComputer.Json.Reader

/-!
# Configuration texts

A configuration is read from a text token by token, without building a value first. So of two faults
the one that stands first in the text is reported, whether it concerns the form of the text or its
content, and a fault in the content comes before anything that follows it.

The text is an object with the fields in any order, or a list of fields in their order of
declaration. Fields may be left out and unknown keys are passed over.
-/

namespace CardComputer.Config

open Json (Token Trouble ReadError DecodeError)

/-- The fields of a configuration. -/
inductive Field where
  | model
  | masterClockHz
  | mainDivider
  | mcuDivider
  | barcodeShiftUs
  | displayTickUs
  | decayWindowTicks
deriving DecidableEq

namespace Field

/-- The fields in their order of declaration. -/
def all : List Field :=
  [model, masterClockHz, mainDivider, mcuDivider, barcodeShiftUs, displayTickUs, decayWindowTicks]

/-- The key of a field. -/
def key : Field → String
  | model => "model"
  | masterClockHz => "master_clock_hz"
  | mainDivider => "main_cpu_divider"
  | mcuDivider => "mcu_divider"
  | barcodeShiftUs => "barcode_shift_us"
  | displayTickUs => "display_tick_us"
  | decayWindowTicks => "decay_window_ticks"

/-- The field with a key. -/
def ofKey? (s : String) : Option Field := all.find? fun f => f.key == s

/-- Sets a field that holds a number. -/
def setWord (f : Field) (w : UInt32) (c : Config) : Config :=
  match f with
  | model => c
  | masterClockHz => { c with masterClockHz := w }
  | mainDivider => { c with mainDivider := w }
  | mcuDivider => { c with mcuDivider := w }
  | barcodeShiftUs => { c with barcodeShiftUs := w }
  | displayTickUs => { c with displayTickUs := w }
  | decayWindowTicks => { c with decayWindowTicks := w }

end Field

/-- Where a field's value stands. -/
inductive Place where
  /-- In an object, of which these fields were seen. -/
  | member (seen : List Field)
  /-- In a list, in which these fields may follow. -/
  | item (left : List Field)

/-- What may come next in a configuration text. -/
inductive Reading where
  | start
  /-- The first key of the object, or its end. -/
  | objectStart
  | key (seen : List Field) (c : Config)
  /-- The colon after the key of a field, or of no field. -/
  | colon (seen : List Field) (c : Config) (field : Option Field)
  /-- The first item of the list, or its end. -/
  | listStart
  | value (place : Place) (c : Config) (field : Field)
  /-- More of a value that is passed over. -/
  | passing (seen : List Field) (c : Config) (inner : Json.Reading)
  /-- The name of a model that is written as the key of an object. -/
  | modelName (place : Place) (c : Config)
  /-- The colon after such a name. -/
  | modelColon (place : Place) (c : Config) (m : Model)
  /-- The `null` after such a colon. -/
  | modelPayload (place : Place) (c : Config) (m : Model)
  /-- The end of such an object. -/
  | modelEnd (place : Place) (c : Config) (m : Model)
  /-- Whatever follows a value. -/
  | after (place : Place) (c : Config)
  | done (c : Config)

namespace Reading

/-- A text that has no JSON form. -/
def malformed {α : Type} : Except ReadError α := .error (.form .malformed)

/-- A text whose content is wrong. -/
def wrong {α : Type} (e : DecodeError) : Except ReadError α := .error (.content e)

/-- Takes a key. -/
def takeKey (seen : List Field) (c : Config) : Token → Except ReadError Reading
  | .text (some s) =>
    match Field.ofKey? s with
    | some f => if f ∈ seen then wrong (.duplicateField s) else .ok (.colon seen c (some f))
    | none => .ok (.colon seen c none)
  | .brokenText onWanted _ => .error (.form onWanted)
  | _ => malformed

/-- Takes the name of a model. -/
def takeModelName (s : String) : Except ReadError Model :=
  (Json.ofName s).mapError .content

/-- Takes the first token of the value of a field. -/
def takeValue (place : Place) (c : Config) (f : Field) (t : Token) : Except ReadError Reading :=
  match f, t with
  | .model, .text (some s) => (takeModelName s).map fun m => .after place { c with model := m }
  | .model, .openObject => .ok (.modelName place c)
  | .model, .brokenText onWanted _ => .error (.form onWanted)
  | .model, _ => malformed
  | f, t => (Token.wordOf "u32" t).map fun w => .after place (f.setWord w c)

/-- Takes one token. -/
def step : Reading → Token → Except ReadError Reading
  | start, .openObject => .ok .objectStart
  | start, .openList => .ok .listStart
  | start, t => .error (t.unexpected s!"struct {typeName}")
  | objectStart, .closeObject => .ok (.done standard)
  | objectStart, t => takeKey [] standard t
  | key seen c, t => takeKey seen c t
  | colon seen c (some f), .colon => .ok (.value (.member (f :: seen)) c f)
  | colon seen c none, .colon => .ok (.passing seen c .start)
  -- The model is the field declared first.
  | listStart, .closeList => .ok (.done standard)
  | listStart, t => takeValue (.item (Field.all.drop 1)) standard .model t
  | value place c f, t => takeValue place c f t
  | passing seen c inner, t =>
    match inner.step .passed t with
    -- The value ends with the token that completes it.
    | .ok inner =>
      .ok (if inner.value?.isSome then .after (.member seen) c else .passing seen c inner)
    | .error trouble => .error (.form trouble)
  | modelName place c, .text (some s) => (takeModelName s).map (.modelColon place c)
  | modelName _ _, t => .error (t.unexpected "variant identifier")
  | modelColon place c m, .colon => .ok (.modelPayload place c m)
  | modelPayload place c m, .null => .ok (.modelEnd place c m)
  | modelPayload _ _ _, t => .error (t.unexpected "unit")
  | modelEnd place c m, .closeObject => .ok (.after place { c with model := m })
  | after (.member seen) c, .comma => .ok (.key seen c)
  | after (.member _) c, .closeObject => .ok (.done c)
  | after (.item (f :: left)) c, .comma => .ok (.value (.item left) c f)
  | after (.item _) c, .closeList => .ok (.done c)
  | _, _ => malformed

end Reading

/-- The configuration that tokens spell. -/
def ofTokens (tokens : List Token) : Except ReadError Config := do
  match ← tokens.foldlM Reading.step .start with
  | .done c => return c
  | _ => throw (.form .endOfText)

/-- What can keep a configuration from being loaded. -/
inductive LoadError where
  | noFile
  | noText
  | unreadable (error : ReadError)
  | invalid (problem : Problem)

/-- The valid configuration that a text spells. -/
def ofText (s : String) : Except LoadError Config :=
  match ofTokens (Token.ofChars s.toList) with
  | .error e => .error (.unreadable e)
  | .ok c =>
    match c.problem? with
    | some p => .error (.invalid p)
    | none => .ok c

/-- The valid configuration in a file, if the file exists. All of it has to be text before any of it
is read. -/
def ofFile : Option ByteArray → Except LoadError Config
  | none => .error .noFile
  | some bytes =>
    match String.fromUTF8? bytes with
    | none => .error .noText
    | some s => ofText s

end CardComputer.Config
