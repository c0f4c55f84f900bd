import CardComputer.Json.Basic

/-!
# Stored forms

A type with a stored form has an encoder into JSON values and a decoder that refuses what no encoder
writes, with a reason (`Stored`). `LawfulStored` says that decoding undoes encoding.

The rest of the module builds stored forms:

* `Record` reads a structure either from an object, whose members may stand in any order, or from
  the list of its fields in the order of declaration;
* `Named` is a type whose values are names;
* `variantOf` splits a tagged value into its name and its payload.
-/

namespace CardComputer.Json

/-- A type whose values are written as JSON values and read back. -/
class Stored (α : Type) where
  encode : α → Json
  /-- The value with a stored form. -/
  decode : Json → Except DecodeError α

export Stored (encode decode)

/-- Decoding undoes encoding. -/
class LawfulStored (α : Type) [Stored α] : Prop where
  decode_encode (a : α) : decode (encode a) = .ok a

export LawfulStored (decode_encode)

attribute [simp] decode_encode

/-! ## Words and truth values -/

/-- Reads a whole number below `bound`. -/
def decodeBelow (bound : Nat) (expected : String) : Json → Except DecodeError Nat
  | .number (.whole k) =>
    if 0 ≤ k ∧ k < bound then .ok k.toNat
    else .error (.wrongValue (.number (.whole k)) expected)
  | v => .error (.wrongType v.found expected)

theorem decodeBelow_whole {bound n : Nat} (expected : String) (h : n < bound) :
    decodeBelow bound expected (.whole n) = .ok n := by
  have : (n : Int) < bound := by omega
  simp [decodeBelow, whole, this]

instance : Stored UInt8 where
  encode w := .whole w.toNat
  decode v := (decodeBelow UInt8.size "u8" v).map UInt8.ofNat

instance : LawfulStored UInt8 where
  decode_encode w := by
    show (decodeBelow UInt8.size "u8" (.whole w.toNat)).map UInt8.ofNat = .ok w
    rw [decodeBelow_whole _ w.toNat_lt_size]
    exact congrArg Except.ok UInt8.ofNat_toNat

instance : Stored UInt16 where
  encode w := .whole w.toNat
  decode v := (decodeBelow UInt16.size "u16" v).map UInt16.ofNat

instance : LawfulStored UInt16 where
  decode_encode w := by
    show (decodeBelow UInt16.size "u16" (.whole w.toNat)).map UInt16.ofNat = .ok w
    rw [decodeBelow_whole _ w.toNat_lt_size]
    exact congrArg Except.ok UInt16.ofNat_toNat

instance : Stored UInt32 where
  encode w := .whole w.toNat
  decode v := (decodeBelow UInt32.size "u32" v).map UInt32.ofNat

instance : LawfulStored UInt32 where
  decode_encode w := by
    show (decodeBelow UInt32.size "u32" (.whole w.toNat)).map UInt32.ofNat = .ok w
    rw [decodeBelow_whole _ w.toNat_lt_size]
    exact congrArg Except.ok UInt32.ofNat_toNat

instance : Stored UInt64 where
  encode w := .whole w.toNat
  decode v := (decodeBelow UInt64.size "u64" v).map UInt64.ofNat

instance : LawfulStored UInt64 where
  decode_encode w := by
    show (decodeBelow UInt64.size "u64" (.whole w.toNat)).map UInt64.ofNat = .ok w
    rw [decodeBelow_whole _ w.toNat_lt_size]
    exact congrArg Except.ok UInt64.ofNat_toNat

instance : Stored Bool where
  encode := .bool
  decode
    | .bool b => .ok b
    | v => .error (.wrongType v.found "a boolean")

instance : LawfulStored Bool where
  decode_encode _ := rfl

/-! ## Options, lists, arrays and pairs -/

/-- A value that may be absent; `null` stands for its absence. -/
instance {α : Type} [Stored α] : Stored (Option α) where
  encode
    | none => .null
    | some a => encode a
  decode
    | .null => .ok none
    | v => (decode v).map some

/-- A stored form that is never `null`, so that `null` is free to mean absence. -/
class NeverNull (α : Type) [Stored α] : Prop where
  encode_ne_null (a : α) : encode a ≠ .null

instance {α : Type} [Stored α] [LawfulStored α] [NeverNull α] : LawfulStored (Option α) where
  decode_encode o := by
    cases o with
    | none => rfl
    | some a =>
      have h : encode (some a) = encode a := rfl
      rw [h]
      have hn := NeverNull.encode_ne_null a
      have hd := decode_encode a
      revert hn hd
      generalize encode a = v
      intro hn hd
      cases v with
      | null => exact absurd rfl hn
      | _ =>
        simp [decode, Except.map] at hd ⊢
        rw [hd]

instance : NeverNull UInt8 where
  encode_ne_null _ := Json.noConfusion

instance : NeverNull UInt64 where
  encode_ne_null _ := Json.noConfusion

/-- The words for a list with elements to spare. -/
def fewerElements : String := "fewer elements in array"

/-- Reads a list of exactly `size` elements. -/
def decodeArray {α : Type} [Stored α] (size : Nat) (expected : String) :
    Json → Except DecodeError (List α)
  | .list items => do
    let values ← (items.take size).mapM decode
    if items.length < size then throw (.wrongLength items.length expected)
    else if size < items.length then throw (.wrongLength items.length fewerElements)
    else return values
  | v => .error (.wrongType v.found expected)

instance {α : Type} [Stored α] : Stored (List α) where
  encode as := .list (as.map encode)
  decode
    | .list items => items.mapM decode
    | v => .error (.wrongType v.found "a sequence")

theorem mapM_decode_map_encode {α : Type} [Stored α] [LawfulStored α] (as : List α) :
    (as.map encode).mapM (decode : Json → Except DecodeError α) = .ok as := by
  induction as with
  | nil => rfl
  | cons a as ih => simp [List.mapM_cons, ih]; rfl

instance {α : Type} [Stored α] [LawfulStored α] : LawfulStored (List α) where
  decode_encode as := mapM_decode_map_encode as

instance {α : Type} [Stored α] {n : Nat} : Stored (Vector α n) where
  encode v := .list (v.toList.map encode)
  decode v := do
    let items ← decodeArray n s!"an array of length {n}" v
    if h : items.toArray.size = n then return ⟨items.toArray, h⟩
    else throw (.wrongLength items.length fewerElements)

/-- The stored forms of a list are read as an array of its length. -/
theorem decodeArray_map_encode {α : Type} [Stored α] [LawfulStored α] (expected : String)
    (as : List α) : decodeArray as.length expected (.list (as.map encode)) = .ok as := by
  have h : (as.map encode).take as.length = as.map encode := List.take_of_length_le (by simp)
  unfold decodeArray
  simp only [h, mapM_decode_map_encode, List.length_map, Nat.lt_irrefl, if_false]
  rfl

instance {α : Type} [Stored α] [LawfulStored α] {n : Nat} : LawfulStored (Vector α n) where
  decode_encode v := by
    have h := decodeArray_map_encode s!"an array of length {n}" v.toList
    rw [Vector.length_toList] at h
    show (decodeArray n s!"an array of length {n}" (.list (v.toList.map encode))).bind _ = _
    rw [h]
    simp only [Except.bind, List.size_toArray, Vector.length_toList, dite_true]
    exact congrArg Except.ok (Vector.toArray_inj.1 (Array.toArray_toList ..))

/-- The parts of a pair. -/
def decodePair {α β : Type} [Stored α] [Stored β] (expected : String) :
    List Json → Except DecodeError (α × β)
  | [] => .error (.wrongLength 0 expected)
  | [a] => do
    let _ ← (decode a : Except DecodeError α)
    throw (.wrongLength 1 expected)
  | [a, b] => return (← decode a, ← decode b)
  | a :: b :: rest => do
    let _ ← (decode a : Except DecodeError α)
    let _ ← (decode b : Except DecodeError β)
    throw (.wrongLength (rest.length + 2) fewerElements)

instance {α β : Type} [Stored α] [Stored β] : Stored (α × β) where
  encode p := .list [encode p.1, encode p.2]
  decode
    | .list items => decodePair "a tuple of size 2" items
    | v => .error (.wrongType v.found "a tuple of size 2")

instance {α β : Type} [Stored α] [LawfulStored α] [Stored β] [LawfulStored β] :
    LawfulStored (α × β) where
  decode_encode p := by
    simp [encode, decode, decodePair]
    rfl

instance {α β : Type} [Stored α] [Stored β] : NeverNull (α × β) where
  encode_ne_null _ := Json.noConfusion

/-! ## Records -/

/-- What keeps an object from being read as a record. -/
inductive FieldFault where
  | unreadable (key : String) (error : DecodeError)
  | missing (key : String)

namespace FieldFault

/-- The error of a fault. -/
def error : FieldFault → DecodeError
  | unreadable _ e => e
  | missing key => .missingField key

/-- The fault to report of two: a field that cannot be read goes before one that is missing, the
lesser key before the greater, and the field declared first before the other. -/
def first : FieldFault → FieldFault → FieldFault
  | unreadable a e, unreadable b f => if b < a then unreadable b f else unreadable a e
  | unreadable a e, missing _ => unreadable a e
  | missing _, unreadable b f => unreadable b f
  | missing a, missing _ => missing a

end FieldFault

/-- How a structure is read: from the members of an object, or from a list of its fields, of which
it takes the first `size`. A list that is too short gives `none` for the error. -/
structure Record (α : Type) where
  size : Nat
  /-- Reads the fields from members. -/
  ofMembers : List (String × Json) → Except FieldFault α
  /-- Reads the fields from items and returns what is left of them. -/
  ofItems : List Json → Except (Option DecodeError) (α × List Json)

namespace Record

/-- The record without fields. -/
def of {α : Type} (a : α) : Record α where
  size := 0
  ofMembers _ := .ok a
  ofItems items := .ok (a, items)

/-- Applies what is read to a field; of two faults the one to report is kept. -/
def combine {α β : Type} (f : Except FieldFault (β → α)) (b : Except FieldFault β) :
    Except FieldFault α :=
  match f, b with
  | .ok f, .ok b => .ok (f b)
  | .ok _, .error fault => .error fault
  | .error fault, .ok _ => .error fault
  | .error fault, .error fault' => .error (fault.first fault')

/-- Reads the member with a key; `absent` is the value of a member that is not there. -/
def member {β : Type} [Stored β] (key : String) (absent : Except FieldFault β)
    (members : List (String × Json)) : Except FieldFault β :=
  match find? key members with
  | none => absent
  | some v => (decode v).mapError (.unreadable key)

/-- One more field, with values for the two ways in which it can be absent. -/
def fieldWith {α β : Type} [Stored β] (key : String) (absent : Except FieldFault β)
    (noItem : Except (Option DecodeError) β) (r : Record (β → α)) : Record α where
  size := r.size + 1
  ofMembers members := combine (r.ofMembers members) (member key absent members)
  ofItems items := do
    match ← r.ofItems items with
    | (f, []) => return (f (← noItem), [])
    | (f, v :: rest) => return (f (← (decode v).mapError some), rest)

/-- A field that has to be there. -/
def field {α β : Type} [Stored β] (r : Record (β → α)) (key : String) : Record α :=
  r.fieldWith key (.error (.missing key)) (.error none)

/-- A field that an object may leave out. -/
def optional {α β : Type} [Stored β] (r : Record (Option β → α)) (key : String) : Record α :=
  r.fieldWith key (.ok none) (.error none)

/-- A field that may be left out, also at the end of a list. -/
def fieldOr {α β : Type} [Stored β] (r : Record (β → α)) (key : String) (default : β) : Record α :=
  r.fieldWith key (.ok default) (.ok default)

/-- The words for a list that is too short. -/
def expectedLength (name : String) (size : Nat) : String :=
  s!"{name} with {size} element" ++ if size = 1 then "" else "s"

/-- Reads a record from an object. -/
def decodeMembers {α : Type} (r : Record α) (members : List (String × Json)) :
    Except DecodeError α :=
  (r.ofMembers members).mapError FieldFault.error

/-- Reads the record of a structure. -/
def decode {α : Type} (r : Record α) (name : String) : Json → Except DecodeError α
  | .object members => r.decodeMembers members
  | .list items =>
    match r.ofItems items with
    | .ok (a, []) => .ok a
    | .ok (_, _ :: _) => .error (.wrongLength items.length fewerElements)
    | .error none => .error (.wrongLength items.length (expectedLength s!"struct {name}" r.size))
    | .error (some e) => .error e
  | v => .error (.wrongType v.found s!"struct {name}")

/-! ### Reading back the members of a record -/

@[simp]
theorem combine_ok {α β : Type} (f : β → α) (b : β) : combine (.ok f) (.ok b) = .ok (f b) := rfl

@[simp]
theorem member_head {β : Type} [Stored β] [LawfulStored β] (key : String)
    (absent : Except FieldFault β) (b : β) (members : List (String × Json)) :
    member key absent ((key, encode b) :: members) = .ok b := by
  have hfind : find? key ((key, encode b) :: members) = some (encode b) := by simp [find?]
  rw [member, hfind]
  simp only [decode_encode]
  rfl

@[simp]
theorem member_tail {β : Type} [Stored β] {key k : String} (h : k ≠ key)
    (absent : Except FieldFault β) (v : Json) (members : List (String × Json)) :
    member key absent ((k, v) :: members) = member key absent members := by
  simp [member, find?, h]

@[simp]
theorem ofMembers_of {α : Type} (a : α) (members : List (String × Json)) :
    (Record.of a).ofMembers members = .ok a := rfl

@[simp]
theorem ofMembers_field {α β : Type} [Stored β] (r : Record (β → α)) (key : String)
    (members : List (String × Json)) :
    (r.field key).ofMembers members =
      combine (r.ofMembers members) (member key (.error (.missing key)) members) := rfl

@[simp]
theorem ofMembers_optional {α β : Type} [Stored β] (r : Record (Option β → α)) (key : String)
    (members : List (String × Json)) :
    (r.optional key).ofMembers members =
      combine (r.ofMembers members) (member key (.ok none) members) := rfl

@[simp]
theorem ofMembers_fieldOr {α β : Type} [Stored β] (r : Record (β → α)) (key : String)
    (default : β) (members : List (String × Json)) :
    (r.fieldOr key default).ofMembers members =
      combine (r.ofMembers members) (member key (.ok default) members) := rfl

/-- Members without faults are read. -/
theorem decodeMembers_eq_ok {α : Type} {r : Record α} {members : List (String × Json)} {a : α}
    (h : r.ofMembers members = .ok a) : r.decodeMembers members = .ok a := by
  rw [decodeMembers, h]
  rfl

/-- An object without faults in its members is read. -/
theorem decode_object {α : Type} {r : Record α} {name : String} {members : List (String × Json)}
    {a : α} (h : r.ofMembers members = .ok a) : r.decode name (.object members) = .ok a :=
  decodeMembers_eq_ok h

end Record

/-! ## Names and variants -/

/-- A type whose values are known by their names. -/
class Named (α : Type) where
  /-- The values in their order. -/
  all : List α
  /-- The name of a value. -/
  name : α → String

/-- The list of values is complete and no two share a name. -/
class LawfulNamed (α : Type) [Named α] : Prop where
  find?_name (a : α) : (Named.all : List α).find? (fun b => Named.name b == Named.name a) = some a

/-- The value with a name. -/
def ofName? {α : Type} [Named α] (s : String) : Option α :=
  (Named.all : List α).find? fun a => Named.name a == s

/-- The value with a name, or the error that lists the known ones. -/
def ofName {α : Type} [Named α] (s : String) : Except DecodeError α :=
  match ofName? s with
  | some a => .ok a
  | none => .error (.unknownVariant s ((Named.all : List α).map Named.name))

/-- Splits a tagged value into its name and its payload: a text is a name alone, and an object has
its name for its only key. -/
def variantOf : Json → Except DecodeError (String × Option Json)
  | .text s => .ok (s, none)
  | .object [(key, payload)] => .ok (key, some payload)
  | .object _ => .error (.wrongValue .map "map with a single key")
  | v => .error (.wrongType v.found "string or map")

/-- A tagged value with a payload is read as its name and its payload are. -/
theorem variantOf_object_bind {α : Type} {f : String × Option Json → Except DecodeError α}
    {key : String} {payload : Json} {a : α} (h : f (key, some payload) = .ok a) :
    (variantOf (.object [(key, payload)]) >>= f) = .ok a :=
  h

/-- Accepts the payload of a name that has none. -/
def noPayload : Option Json → Except DecodeError Unit
  | none => .ok ()
  | some .null => .ok ()
  | some v => .error (.wrongType v.found "unit")

/-- Reads the payload of a name that has one value. -/
def payload {α : Type} [Stored α] : Option Json → Except DecodeError α
  | none => .error (.wrongType .plainVariant "newtype variant")
  | some v => decode v

theorem payload_encode {α : Type} [Stored α] [LawfulStored α] (a : α) :
    payload (some (encode a)) = .ok a :=
  decode_encode a

/-- Reads the payload of a name that has two values. -/
def pairPayload {α β : Type} [Stored α] [Stored β] (expected : String) :
    Option Json → Except DecodeError (α × β)
  | none => .error (.wrongType .plainVariant "tuple variant")
  | some (.list []) => .error (.wrongType .null expected)
  | some (.list items) => decodePair (Record.expectedLength expected 2) items
  | some v => .error (.wrongType v.found "tuple variant")

theorem pairPayload_encode {α β : Type} [Stored α] [LawfulStored α] [Stored β] [LawfulStored β]
    (expected : String) (a : α) (b : β) :
    pairPayload expected (some (.list [encode a, encode b])) = .ok (a, b) := by
  simp [pairPayload, decodePair]
  rfl

/-- Reads the payload of a name that has fields. -/
def recordPayload {α : Type} (r : Record α) : Option Json → Except DecodeError α
  | none => .error (.wrongType .plainVariant "struct variant")
  | some (.object members) => r.decodeMembers members
  | some v => .error (.wrongType v.found "struct variant")

/-- Members without faults are read as a payload of fields. -/
theorem recordPayload_object {α : Type} {r : Record α} {members : List (String × Json)} {a : α}
    (h : r.ofMembers members = .ok a) : recordPayload r (some (.object members)) = .ok a :=
  Record.decodeMembers_eq_ok h

/-- A value that is stored by its name. -/
instance (priority := low) instStoredNamed {α : Type} [Named α] : Stored α where
  encode a := .text (Named.name a)
  decode v := do
    let (name, payload) ← variantOf v
    let a ← ofName name
    noPayload payload
    return a

instance (priority := low) {α : Type} [Named α] [LawfulNamed α] :
    @LawfulStored α instStoredNamed where
  decode_encode a := by
    have h : ofName? (Named.name a) = some a := LawfulNamed.find?_name a
    show (ofName (Named.name a) >>= fun a => noPayload none >>= fun _ => pure a) = Except.ok a
    simp only [ofName, h]
    rfl

instance (priority := low) {α : Type} [Named α] : @NeverNull α instStoredNamed where
  encode_ne_null _ := Json.noConfusion

end CardComputer.Json
