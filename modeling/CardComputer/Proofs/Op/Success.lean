import CardComputer.Proofs.Op.Outcome

/-!
# Operations that succeed

An operation that can fail may still succeed on a device that leaves room for what it adds
(`Op.Succeeds`). There is one rule for each way in which such operations are built; what cannot fail
at all has an outcome (`Op.Does`) and succeeds everywhere.
-/

namespace CardComputer.Op

variable {σ τ α β : Type}

/-- The operation succeeds on a device with its log. -/
def Succeeds (op : Op σ α) (s : Observed σ) : Prop :=
  ∃ a s', op s = .ok a s'

section Rules

variable {s : Observed σ}

/-- An operation that cannot fail. -/
theorem Does.succeeds {op : Op σ α} {f : σ → α × σ} (h : Does op f) (s : Observed σ) :
    Succeeds op s := by
  obtain ⟨log, hop⟩ := h s
  exact ⟨_, _, hop⟩

theorem succeeds_pure (a : α) (s : Observed σ) : Succeeds (pure a) s := (does_pure a).succeeds s

theorem succeeds_update (f : σ → σ) (s : Observed σ) : Succeeds (update f) s :=
  (does_update f).succeeds s

/-- One operation after another: the second has to succeed where the first ends. -/
theorem succeeds_bind {op : Op σ α} {next : α → Op σ β} (h : Succeeds op s)
    (hn : ∀ a t, op s = .ok a t → Succeeds (next a) t) : Succeeds (op >>= next) s := by
  obtain ⟨a, t, ht⟩ := h
  obtain ⟨b, s', hs⟩ := hn a t ht
  exact ⟨b, s', bind_eq_ok.2 ⟨a, t, ht, hs⟩⟩

theorem succeeds_device_bind {next : σ → Op σ β} (h : Succeeds (next s.device) s) :
    Succeeds (device >>= next) s := by
  refine succeeds_bind (does_device.succeeds s) fun d t ht => ?_
  obtain ⟨rfl, rfl⟩ := device_eq_ok.1 ht
  exact h

theorem succeeds_update_bind {f : σ → σ} {next : Unit → Op σ β}
    (h : Succeeds (next ()) { s with device := f s.device }) : Succeeds (update f >>= next) s := by
  refine succeeds_bind (succeeds_update f s) fun _ t ht => ?_
  obtain rfl := update_eq_ok.1 ht
  exact h

/-- What comes after a message has to succeed whatever the message does to the log. -/
theorem succeeds_say_bind {c : Log.Category} {level : Log.Level} {text : Unit → String}
    {next : Unit → Op σ β} (h : ∀ log, Succeeds (next ()) ⟨s.device, log⟩) :
    Succeeds (say c level text >>= next) s :=
  exists_ok_of_say_bind h

/-- A check succeeds if there is no fault. -/
theorem succeeds_check {value : Except Fault α} (h : ∃ a, value = .ok a) (s : Observed σ) :
    Succeeds (check value) s := by
  obtain ⟨a, ha⟩ := h
  exact ⟨a, s, check_eq_ok.2 ⟨ha, rfl⟩⟩

/-- A sum succeeds if it fits. -/
theorem succeeds_checkedAdd {a b : UInt64} (h : a.toNat + b.toNat < UInt64.size)
    (s : Observed σ) : Succeeds (check (checkedAdd a b)) s :=
  succeeds_check (exists_checkedAdd h) s

/-- What happens to a part of the device. -/
theorem succeeds_within {get : σ → τ} {set : τ → σ → σ} {op : Op τ α}
    (h : Succeeds op ⟨get s.device, s.log⟩) : Succeeds (within get set op) s := by
  obtain ⟨a, t, ht⟩ := h
  exact ⟨a, _, within_eq_ok.2 ⟨t, ht, rfl⟩⟩

end Rules

end CardComputer.Op
