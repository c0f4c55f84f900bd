import CardComputer.Op

/-!
# Operations with an outcome

Most operations cannot fail, and the log has no say in what they do: they succeed on every device,
with an answer and a device that a function gives (`Op.Does`). There is one rule for each way in
which such operations are built, so that the function follows the text of the operation.
-/

namespace CardComputer.Op

variable {σ τ α β γ : Type}

/-- Whatever the log holds, the operation succeeds, with the answer and the device that a function
gives. -/
def Does (op : Op σ α) (f : σ → α × σ) : Prop :=
  ∀ s, ∃ log, op s = .ok (f s.device).1 ⟨(f s.device).2, log⟩

section Rules

/-- An operation that succeeds has done what its function says. -/
theorem Does.of_ok {op : Op σ α} {f : σ → α × σ} {s s' : Observed σ} {a : α} (h : Does op f)
    (hs : op s = .ok a s') : a = (f s.device).1 ∧ s'.device = (f s.device).2 := by
  obtain ⟨log, hlog⟩ := h s
  rw [hlog] at hs
  cases hs
  exact ⟨rfl, rfl⟩

theorem Does.congr {op : Op σ α} {f g : σ → α × σ} (h : Does op f) (hfg : ∀ d, f d = g d) :
    Does op g := by
  intro s
  rw [← hfg]
  exact h s

/-- An operation keeps what its function keeps. -/
theorem Does.keeps {op : Op σ α} {f : σ → α × σ} {view : σ → γ} (h : Does op f)
    (hview : ∀ d, view (f d).2 = view d) : Keeps view op := by
  intro s a s' hs
  rw [(h.of_ok hs).2]
  exact hview _

theorem does_pure (a : α) : Does (pure a : Op σ α) fun d => (a, d) := fun s => ⟨s.log, rfl⟩

/-- One operation after another. -/
theorem does_bind {op : Op σ α} {next : α → Op σ β} {f : σ → α × σ} {g : α → σ → β × σ}
    (h : Does op f) (hn : ∀ a, Does (next a) (g a)) :
    Does (op >>= next) fun d => g (f d).1 (f d).2 := by
  intro s
  obtain ⟨log, hop⟩ := h s
  rw [bind_of_ok hop]
  exact hn _ _

theorem does_device : Does (device : Op σ σ) fun d => (d, d) := fun s => ⟨s.log, rfl⟩

/-- Looking at the device makes no difference to what is done if it only serves messages. -/
theorem does_device_bind {next : σ → Op σ α} {f : σ → α × σ} (hn : ∀ d, Does (next d) f) :
    Does (device >>= next) f :=
  does_bind does_device hn

theorem does_update (f : σ → σ) : Does (update f) fun d => ((), f d) := fun s => ⟨s.log, rfl⟩

theorem does_change (f : σ → α × σ) : Does (change f) f := fun s => ⟨s.log, rfl⟩

/-- A message does nothing to the device. -/
theorem does_say {c : Log.Category} {level : Log.Level} {text : Unit → String} :
    Does (say c level text : Op σ Unit) fun d => ((), d) :=
  fun s => report_of_text rfl s

/-- What comes after a message has to succeed whatever the message does to the log. -/
theorem exists_ok_of_say_bind {c : Log.Category} {level : Log.Level} {text : Unit → String}
    {next : Unit → Op σ α} {s : Observed σ}
    (h : ∀ log, ∃ a s', next () ⟨s.device, log⟩ = .ok a s') :
    ∃ a s', (say c level text >>= next) s = .ok a s' := by
  obtain ⟨log, hlog⟩ : ∃ log, say c level text s = .ok () ⟨s.device, log⟩ := does_say s
  rw [bind_of_ok hlog]
  exact h log

/-- What happens to a part of the device. -/
theorem does_within {get : σ → τ} {set : τ → σ → σ} {op : Op τ α} {f : τ → α × τ}
    (h : Does op f) : Does (within get set op) fun d => ((f (get d)).1, set (f (get d)).2 d) := by
  intro s
  obtain ⟨log, hop⟩ := h ⟨get s.device, s.log⟩
  exact ⟨log, within_eq_ok.2 ⟨_, hop, rfl⟩⟩

/-- A message that is only written in some cases. -/
theorem does_ite_say {c : Prop} [Decidable c] {category : Log.Category} {level : Log.Level}
    {text : Unit → String} {op : Op σ α} {f : σ → α × σ} (h : Does op f) :
    Does (if c then say category level text >>= fun _ => op else op) f := by
  split
  · exact does_bind does_say fun _ => h
  · exact h

/-- A loop over a list that does nothing to the device. -/
theorem does_forIn {items : List β} {body : β → PUnit → Op σ (ForInStep PUnit)}
    (h : ∀ b, Does (body b ⟨⟩) fun d => (.yield ⟨⟩, d)) :
    Does (forIn items ⟨⟩ body) fun d => (⟨⟩, d) := by
  induction items with
  | nil =>
    rw [List.forIn_nil]
    exact does_pure _
  | cons b items ih =>
    rw [List.forIn_cons]
    intro s
    obtain ⟨log, hbody⟩ := h b s
    rw [bind_of_ok hbody]
    exact ih _

end Rules

end CardComputer.Op
