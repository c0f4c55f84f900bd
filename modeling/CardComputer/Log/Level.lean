import CardComputer.Json.Stored

/-!
# Levels and categories of messages

A message belongs to a category and has a level. Levels are ordered by how much they let through:
`off < error < warn < info < debug < trace`.
-/

namespace CardComputer.Log

/-- How detailed a message is, or up to which detail messages are wanted. -/
inductive Level where
  | off
  | error
  | warn
  | info
  | debug
  | trace
deriving DecidableEq

namespace Level

/-- The place of a level in the order. -/
def rank : Level → Nat
  | off => 0
  | error => 1
  | warn => 2
  | info => 3
  | debug => 4
  | trace => 5

instance : LE Level where
  le a b := a.rank ≤ b.rank

instance (a b : Level) : Decidable (a ≤ b) :=
  inferInstanceAs (Decidable (a.rank ≤ b.rank))

instance : Json.Named Level where
  all := [off, error, warn, info, debug, trace]
  name
    | off => "off"
    | error => "error"
    | warn => "warn"
    | info => "info"
    | debug => "debug"
    | trace => "trace"

instance : Json.LawfulNamed Level where
  find?_name a := by cases a <;> rfl

/-- The level that a word or digit stands for, whatever the case of its letters. -/
def ofWord? (word : String) : Option Level :=
  match word.toLower with
  | "off" | "0" => some off
  | "error" | "err" | "1" => some error
  | "warn" | "warning" | "2" => some warn
  | "info" | "3" => some info
  | "debug" | "4" => some debug
  | "trace" | "5" => some trace
  | _ => none

end Level

/-- The part of the machine that a message is about. -/
inductive Category where
  /-- The processors. -/
  | cpu
  /-- Ports and select lines. -/
  | bus
  /-- Card swipes and keys. -/
  | input
  /-- Grids and their decay. -/
  | display
  /-- Stalls and the mailbox. -/
  | sync
  /-- Accesses without effect. -/
  | stubs
deriving DecidableEq

namespace Category

instance : Json.Named Category where
  all := [cpu, bus, input, display, sync, stubs]
  name
    | cpu => "Cpu"
    | bus => "Bus"
    | input => "Input"
    | display => "Display"
    | sync => "Sync"
    | stubs => "Stubs"

instance : Json.LawfulNamed Category where
  find?_name a := by cases a <;> rfl

end Category

/-- One value for each category. -/
structure PerCategory (α : Type) where
  cpu : α
  bus : α
  input : α
  display : α
  sync : α
  stubs : α
deriving DecidableEq

namespace PerCategory

variable {α : Type}

/-- The same value for every category. -/
def const (a : α) : PerCategory α := ⟨a, a, a, a, a, a⟩

/-- The value of a category. -/
def get (p : PerCategory α) : Category → α
  | .cpu => p.cpu
  | .bus => p.bus
  | .input => p.input
  | .display => p.display
  | .sync => p.sync
  | .stubs => p.stubs

/-- The same values but for one category. -/
def set (p : PerCategory α) (c : Category) (a : α) : PerCategory α :=
  match c with
  | .cpu => { p with cpu := a }
  | .bus => { p with bus := a }
  | .input => { p with input := a }
  | .display => { p with display := a }
  | .sync => { p with sync := a }
  | .stubs => { p with stubs := a }

@[simp]
theorem get_const (a : α) (c : Category) : (const a).get c = a := by
  cases c <;> rfl

@[simp]
theorem get_set_self (p : PerCategory α) (c : Category) (a : α) : (p.set c a).get c = a := by
  cases c <;> rfl

theorem get_set_of_ne (p : PerCategory α) {c d : Category} (a : α) (h : d ≠ c) :
    (p.set c a).get d = p.get d := by
  cases c <;> cases d <;> first | rfl | exact absurd rfl h

end PerCategory

end CardComputer.Log
