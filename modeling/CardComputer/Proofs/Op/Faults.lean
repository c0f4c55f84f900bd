import CardComputer.Proofs.Op.Outcome

/-!
# The faults of operations

Which faults an operation can have (`Op.Raises`). A fault arises where something is checked or where
a message is put together; whatever else an operation consists of passes it on. There is one rule
for each way in which operations are built that can have faults at all; the others have an outcome
(`Op.Does`).
-/

namespace CardComputer

/-- The fault is one of arithmetic: a sum that does not fit or a difference that is negative. -/
def Fault.IsArithmetic : Fault → Prop
  | addOverflow | subOverflow => True
  | indexOutOfBounds _ _ => False

/-- A sum is only refused because it does not fit. -/
theorem isArithmetic_of_checkedAdd {a b : UInt64} {fault : Fault}
    (h : checkedAdd a b = .error fault) : fault.IsArithmetic := by
  rw [(checkedAdd_eq_error_iff.1 h).1]
  trivial

/-- A difference is only refused because it is negative. -/
theorem isArithmetic_of_checkedSub {a b : UInt8} {fault : Fault}
    (h : checkedSub a b = .error fault) : fault.IsArithmetic := by
  unfold checkedSub at h
  split at h
  · cases h
  · cases h
    trivial

namespace Op

variable {σ τ α β γ : Type} {Expected : Fault → Prop}

/-- Whatever the log holds, every fault of the operation is an expected one. -/
def Raises (Expected : Fault → Prop) (op : Op σ α) : Prop :=
  ∀ s fault t, op s = .error fault t → Expected fault

section Rules

/-- An operation that cannot fail. -/
theorem Does.raises {op : Op σ α} {f : σ → α × σ} (h : Does op f) : Raises Expected op := by
  intro s fault t ht
  obtain ⟨log, hok⟩ := h s
  rw [hok] at ht
  cases ht

theorem raises_pure (a : α) : Raises Expected (pure a : Op σ α) := (does_pure a).raises

theorem raises_device : Raises Expected (device : Op σ σ) := does_device.raises

theorem raises_update (f : σ → σ) : Raises Expected (update f) := (does_update f).raises

theorem raises_say {c : Log.Category} {level : Log.Level} {text : Unit → String} :
    Raises Expected (say c level text : Op σ Unit) :=
  does_say.raises

/-- One operation after another. -/
theorem raises_bind {op : Op σ α} {next : α → Op σ β} (h : Raises Expected op)
    (hn : ∀ a, Raises Expected (next a)) : Raises Expected (op >>= next) := by
  intro s fault t ht
  -- The fault is that of the first operation, or of the second one where the first ends.
  cases hop : op s with
  | ok a u =>
    rw [bind_of_ok hop] at ht
    exact hn a u fault t ht
  | error f u =>
    rw [bind_of_error hop] at ht
    cases ht
    exact h _ _ _ hop

/-- A check raises the faults of what it checks. -/
theorem raises_check {value : Except Fault α} (h : ∀ fault, value = .error fault → Expected fault) :
    Raises Expected (check value : Op σ α) := by
  intro s fault t ht
  unfold check at ht
  split at ht
  · cases ht
  · cases ht
    exact h _ rfl

/-- A message raises the faults of its text, which is not always put together. -/
theorem raises_report {c : Log.Category} {level : Log.Level} {text : MessageText}
    (h : ∀ fault, text () = .error fault → Expected fault) :
    Raises Expected (report c level text : Op σ Unit) := by
  intro s fault t ht
  unfold report at ht
  split at ht
  · cases ht
  · split at ht
    · cases ht
    · rename_i f hf
      cases ht
      exact h _ hf

theorem raises_within {get : σ → τ} {set : τ → σ → σ} {op : Op τ α} (h : Raises Expected op) :
    Raises Expected (within get set op) := by
  intro s fault t ht
  unfold within at ht
  split at ht
  · cases ht
  · rename_i f u hop
    cases ht
    exact h _ _ _ hop

theorem raises_ite {c : Prop} [Decidable c] {op op' : Op σ α} (h : Raises Expected op)
    (h' : Raises Expected op') : Raises Expected (if c then op else op') := by
  split
  · exact h
  · exact h'

end Rules

end Op

end CardComputer
