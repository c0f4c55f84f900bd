import CardComputer.Json.Basic

/-!
# Paths into JSON values

A path leads from a value to a part of it, by keys of objects and places in lists. The part can be
removed or set. A path that leads nowhere changes nothing, but setting goes to the end of a list
when its last place lies behind it, and adds a member for a last key that is not there.
-/

namespace CardComputer.Json

/-- A step into a value. -/
inductive PathStep where
  /-- The value under a key of an object. -/
  | key (name : String)
  /-- The value at a place in a list. -/
  | place (index : Nat)
deriving DecidableEq

/-- Changes the value under a key, if there is one. -/
def mapMember (key : String) (f : Json → Json) (members : List (String × Json)) :
    List (String × Json) :=
  members.map fun m => if m.1 == key then (m.1, f m.2) else m

/-- Changes what a path leads to: `last` is applied to the last step and the value that
holds it. -/
def atPath (last : PathStep → Json → Json) : List PathStep → Json → Json
  | [], v => v
  | [step], v => last step v
  | .key name :: rest, .object members =>
    .object (mapMember name (atPath last rest) members)
  | .place index :: rest, .list items =>
    .list (items.modify index (atPath last rest))
  | _ :: _, v => v

/-- Removes what one step leads to. -/
def removeStep : PathStep → Json → Json
  | .key name, .object members => .object (members.filter fun m => m.1 != name)
  | .place index, .list items => .list (items.eraseIdx index)
  | _, v => v

/-- Sets what one step leads to. -/
def setStep (new : Json) : PathStep → Json → Json
  | .key name, .object members => .object (setMember name new members)
  | .place index, .list items =>
    .list (if index < items.length then items.set index new else items ++ [new])
  | _, v => v

/-- The value without what a path leads to. -/
def remove (v : Json) (path : List PathStep) : Json :=
  atPath removeStep path v

/-- The value with what a path leads to set. -/
def set (v : Json) (path : List PathStep) (new : Json) : Json :=
  if path.isEmpty then new else atPath (setStep new) path v

end CardComputer.Json
