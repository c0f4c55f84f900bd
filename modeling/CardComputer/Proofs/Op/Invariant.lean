import CardComputer.Proofs.Op.Outcome

/-!
# Properties that operations maintain

A property of a device may hold wherever an operation ends, also where a fault ends it early
(`Op.Maintains`). There is one rule for each way in which operations are built. Faults make no
difference to them: what an operation has done before it fails, its first parts have done.
-/

namespace CardComputer.Op

variable {σ τ α β : Type} {P : σ → Prop}

/-- The device and the log where an operation ends, with a fault or without. -/
def after (op : Op σ α) (s : Observed σ) : Observed σ :=
  match op s with
  | .ok _ t => t
  | .error _ t => t

/-- Of two operations the second one goes on where the first one ends, unless that fails. -/
theorem after_bind (op : Op σ α) (next : α → Op σ β) (s : Observed σ) :
    after (op >>= next) s = after op s ∨
      ∃ a, after (op >>= next) s = after (next a) (after op s) := by
  unfold after
  cases hop : op s with
  | ok a t => exact .inr ⟨a, by rw [bind_of_ok hop]⟩
  | error fault t => exact .inl (by rw [bind_of_error hop])

/-- The device has the property where the operation ends if it has it where the operation
starts. -/
def Maintains (P : σ → Prop) (op : Op σ α) : Prop :=
  ∀ s, P s.device → P (after op s).device

section Rules

/-- An operation that cannot fail. -/
theorem Does.maintains {op : Op σ α} {f : σ → α × σ} (h : Does op f) (hf : ∀ d, P d → P (f d).2) :
    Maintains P op := by
  intro s hs
  obtain ⟨log, hop⟩ := h s
  rw [after, hop]
  exact hf _ hs

theorem maintains_pure (a : α) : Maintains P (pure a : Op σ α) :=
  (does_pure a).maintains fun _ h => h

theorem maintains_device : Maintains P (device : Op σ σ) := does_device.maintains fun _ h => h

theorem maintains_say {c : Log.Category} {level : Log.Level} {text : Unit → String} :
    Maintains P (say c level text : Op σ Unit) :=
  does_say.maintains fun _ h => h

/-- A change that leads from devices with the property to devices with it. -/
theorem maintains_update {f : σ → σ} (h : ∀ d, P d → P (f d)) : Maintains P (update f) :=
  (does_update f).maintains h

/-- One operation after another. -/
theorem maintains_bind {op : Op σ α} {next : α → Op σ β} (h : Maintains P op)
    (hn : ∀ a, Maintains P (next a)) : Maintains P (op >>= next) := by
  intro s hs
  obtain ends | ⟨a, goesOn⟩ := after_bind op next s
  · rw [ends]
    exact h s hs
  · rw [goesOn]
    exact hn a _ (h s hs)

/-- What happens to a part of the device, given what the property says of the part. -/
theorem maintains_within {Q : τ → Prop} {get : σ → τ} {set : τ → σ → σ} {op : Op τ α}
    (h : Maintains Q op) (hget : ∀ d, P d → Q (get d)) (hset : ∀ t d, Q t → P d → P (set t d)) :
    Maintains P (within get set op) := by
  intro s hs
  have hop := h ⟨get s.device, s.log⟩ (hget _ hs)
  unfold after at hop ⊢
  unfold within
  revert hop
  cases op ⟨get s.device, s.log⟩ with
  | ok a t => exact fun hop => hset _ _ hop hs
  | error fault t => exact fun hop => hset _ _ hop hs

/-- What happens to a part of which the property says nothing. -/
theorem maintains_within_of_forall {get : σ → τ} {set : τ → σ → σ} (op : Op τ α)
    (h : ∀ t d, P d → P (set t d)) : Maintains P (within get set op) :=
  maintains_within (Q := fun _ => True) (fun _ _ => trivial) (fun _ _ => trivial)
    fun t d _ => h t d

theorem maintains_ite {c : Prop} [Decidable c] {op op' : Op σ α} (h : Maintains P op)
    (h' : Maintains P op') : Maintains P (if c then op else op') := by
  split
  · exact h
  · exact h'

end Rules

end CardComputer.Op
