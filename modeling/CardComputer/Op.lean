import CardComputer.Fault
import CardComputer.Log.Basic

/-!
# Operations on devices

`Op σ α` is an operation on a device of type `σ` that can write messages and can fail with a
`Fault`. A failing operation keeps what it has done so far, to the device and to the log.

The text of a message is only put together when the message is written, and putting it together can
fail too; `report` is the one place where the log decides about the machine.
-/

namespace CardComputer

/-- A device together with the log its operations write to. -/
structure Observed (σ : Type) where
  /-- The device. -/
  device : σ
  /-- The log. -/
  log : Log

/-- An operation on a device. -/
abbrev Op (σ α : Type) := EStateM Fault (Observed σ) α

/-- The text of a message, put together on demand. -/
abbrev MessageText := Unit → Except Fault String

namespace Op

variable {σ τ α : Type}

/-- The device as it is. -/
@[always_inline]
def device : Op σ σ := fun s => .ok s.device s

/-- Changes the device. -/
@[always_inline]
def update (f : σ → σ) : Op σ Unit := fun s => .ok () { s with device := f s.device }

/-- Changes the device and answers. -/
@[always_inline]
def change (f : σ → α × σ) : Op σ α := fun s =>
  match f s.device with
  | (a, d) => .ok a { s with device := d }

/-- Goes on with a value unless there is a fault. -/
@[always_inline]
def check (value : Except Fault α) : Op σ α := fun s =>
  match value with
  | .ok a => .ok a s
  | .error fault => .error fault s

/-- Writes a message if it is wanted and its category's budget admits it. -/
def report (c : Log.Category) (level : Log.Level) (text : MessageText) : Op σ Unit := fun s =>
  match s.log.consider c level with
  -- A message that is not written can still have another one reported, so the log changes.
  | (false, log) => .ok () { s with log }
  | (true, log) =>
    match text () with
    | .ok message => .ok () { s with log := log.write message }
    | .error fault => .error fault { s with log }

/-- Writes a message whose text cannot fail. -/
@[always_inline]
def say (c : Log.Category) (level : Log.Level) (text : Unit → String) : Op σ Unit :=
  report c level fun _ => .ok (text ())

/-- Operates on a part of the device. -/
@[always_inline]
def within (get : σ → τ) (set : τ → σ → σ) (op : Op τ α) : Op σ α := fun s =>
  match op ⟨get s.device, s.log⟩ with
  | .ok a t => .ok a ⟨set t.device s.device, t.log⟩
  | .error fault t => .error fault ⟨set t.device s.device, t.log⟩

/-! ## Successful runs -/

/-- Two operations succeed one after the other if the second does where the first ends. -/
theorem bind_eq_ok {β : Type} {op : Op σ α} {next : α → Op σ β} {s s' : Observed σ} {b : β} :
    (op >>= next) s = .ok b s' ↔ ∃ a t, op s = .ok a t ∧ next a t = .ok b s' := by
  change EStateM.bind op next s = _ ↔ _
  unfold EStateM.bind
  split
  · rename_i a t ht
    constructor
    · exact fun h => ⟨a, t, ht, h⟩
    · rintro ⟨a', t', h, h'⟩
      cases ht.symm.trans h
      exact h'
  · rename_i ht
    simp [ht]

theorem bind_of_ok {β : Type} {op : Op σ α} {next : α → Op σ β} {s t : Observed σ} {a : α}
    (h : op s = .ok a t) : (op >>= next) s = next a t := by
  change EStateM.bind op next s = _
  unfold EStateM.bind
  rw [h]

theorem bind_of_error {β : Type} {op : Op σ α} {next : α → Op σ β} {s t : Observed σ} {f : Fault}
    (h : op s = .error f t) : (op >>= next) s = .error f t := by
  change EStateM.bind op next s = _
  unfold EStateM.bind
  rw [h]

/-- What an operation goes on with only depends on the result of its first part. -/
theorem bind_congr_run {β : Type} {op op' : Op σ α} {next : α → Op σ β} {s t : Observed σ}
    (h : op s = op' t) : (op >>= next) s = (op' >>= next) t := by
  change EStateM.bind op next s = EStateM.bind op' next t
  unfold EStateM.bind
  rw [h]

@[simp]
theorem pure_eq_ok {s s' : Observed σ} {a b : α} :
    (pure a : Op σ α) s = .ok b s' ↔ a = b ∧ s = s' := by
  change EStateM.Result.ok a s = _ ↔ _
  simp

@[simp]
theorem device_eq_ok {s s' : Observed σ} {d : σ} :
    (device : Op σ σ) s = .ok d s' ↔ s.device = d ∧ s = s' := by
  unfold device
  simp

@[simp]
theorem update_eq_ok {f : σ → σ} {s s' : Observed σ} {u : Unit} :
    update f s = .ok u s' ↔ { s with device := f s.device } = s' := by
  unfold update
  simp

@[simp]
theorem change_eq_ok {f : σ → α × σ} {s s' : Observed σ} {a : α} :
    change f s = .ok a s' ↔
      (f s.device).1 = a ∧ { s with device := (f s.device).2 } = s' := by
  unfold change
  simp

/-- A check succeeds exactly if there is no fault. -/
@[simp]
theorem check_eq_ok {value : Except Fault α} {s s' : Observed σ} {a : α} :
    check value s = .ok a s' ↔ value = .ok a ∧ s = s' := by
  unfold check
  split <;> simp

/-- An operation on a part succeeds if it does on the part alone. -/
theorem within_eq_ok {get : σ → τ} {set : τ → σ → σ} {op : Op τ α} {s s' : Observed σ} {a : α} :
    within get set op s = .ok a s' ↔
      ∃ t, op ⟨get s.device, s.log⟩ = .ok a t ∧ ⟨set t.device s.device, t.log⟩ = s' := by
  unfold within
  split
  · rename_i a' t ht
    constructor
    · intro h
      cases h
      exact ⟨t, ht, rfl⟩
    · rintro ⟨t', ht', rfl⟩
      cases ht.symm.trans ht'
      rfl
  · rename_i ht
    simp [ht]

/-- A message that can be put together is no fault, whether it is written or not. -/
theorem report_of_text {c : Log.Category} {level : Log.Level} {text : MessageText}
    {message : String} (h : text () = .ok message) (s : Observed σ) :
    ∃ log, report c level text s = .ok () ⟨s.device, log⟩ := by
  unfold report
  rw [h]
  split <;> exact ⟨_, rfl⟩

/-! ## What an operation keeps -/

/-- The operation leaves a view of the device as it is, unless it fails. -/
def Keeps {β : Type} (view : σ → β) (op : Op σ α) : Prop :=
  ∀ s a s', op s = .ok a s' → view s'.device = view s.device

section Keeps

variable {β γ : Type} {view : σ → β}

theorem keeps_pure (a : α) : Keeps view (pure a : Op σ α) := by
  intro s b s' h
  cases h
  rfl

/-- Two operations that keep a view keep it together. -/
theorem keeps_bind {op : Op σ α} {next : α → Op σ γ} (h : Keeps view op)
    (hn : ∀ a, Keeps view (next a)) : Keeps view (op >>= next) := by
  intro s c s' hs
  change EStateM.bind op next s = _ at hs
  unfold EStateM.bind at hs
  split at hs
  · rename_i a t ht
    rw [hn a t c s' hs, h s a t ht]
  · cases hs

theorem keeps_device : Keeps view (device : Op σ σ) := by
  intro s a s' h
  cases h
  rfl

/-- A change keeps a view that does not depend on what it changes. -/
theorem keeps_update {f : σ → σ} (h : ∀ d, view (f d) = view d) : Keeps view (update f) := by
  intro s a s' hs
  cases hs
  exact h s.device

/-- Messages keep every view. -/
theorem keeps_report (c : Log.Category) (level : Log.Level) (text : MessageText) :
    Keeps view (report c level text : Op σ Unit) := by
  intro s a s' h
  unfold report at h
  split at h
  · cases h
    rfl
  · split at h <;> cases h
    rfl

/-- Messages whose text cannot fail keep every view. -/
theorem keeps_say (c : Log.Category) (level : Log.Level) (text : Unit → String) :
    Keeps view (say c level text : Op σ Unit) :=
  keeps_report c level _

/-- A message leaves the device as it is. -/
theorem device_of_say {c : Log.Category} {level : Log.Level} {text : Unit → String}
    {s s' : Observed σ} {u : Unit} (h : say c level text s = .ok u s') : s'.device = s.device :=
  have hk : Keeps id (say c level text : Op σ Unit) := keeps_say c level text
  hk s u s' h

/-- What happens to a part keeps a view that does not depend on the part. -/
theorem keeps_within {get : σ → τ} {set : τ → σ → σ} (h : ∀ t d, view (set t d) = view d)
    (op : Op τ α) : Keeps view (within get set op) := by
  intro s a s' hs
  unfold within at hs
  split at hs <;> cases hs
  exact h _ _

/-- What happens to a part keeps a view that depends on what it keeps of the part. -/
theorem keeps_within_of_keeps {view' : τ → γ} {get : σ → τ} {set : τ → σ → σ} {op : Op τ α}
    (hop : Keeps view' op) (h : ∀ t d, view' t = view' (get d) → view (set t d) = view d) :
    Keeps view (within get set op) := by
  intro s a s' hs
  obtain ⟨t, ht, rfl⟩ := within_eq_ok.1 hs
  exact h _ _ (hop _ _ _ ht)

/-- What is done for every item of a list keeps what it keeps for one. -/
theorem keeps_forIn {items : List γ} {body : γ → α → Op σ (ForInStep α)}
    (h : ∀ c a, Keeps view (body c a)) (a : α) : Keeps view (forIn items a body) := by
  induction items generalizing a with
  | nil =>
    rw [List.forIn_nil]
    exact keeps_pure a
  | cons c items ih =>
    rw [List.forIn_cons]
    refine keeps_bind (h c a) fun step => ?_
    cases step with
    | done a => exact keeps_pure a
    | yield a => exact ih a

end Keeps

end Op

end CardComputer
