import CardComputer.Proofs.Op.Simulation

/-!
# Operations and the log

Writing a message changes the log and nothing else, so an operation does the same to its device
whatever the log holds and lets through (`Op.Unlogged`). There is one rule for each way in which
operations are built. The exception is `Op.report`: putting a message together can fail, and is only
tried when the message is written.
-/

namespace CardComputer.Op

variable {σ τ α β γ : Type}

/-- Two observed devices that are the same but for their logs. -/
def SameDevice (s t : Observed σ) : Prop := s.device = t.device

/-- The log has no influence on what an operation does and answers. -/
def Unlogged (op : Op σ α) : Prop := Sim Strict SameDevice SameDevice (· = ·) op op

/-- A strict comparison holds whatever is excused. -/
theorem Sim.of_strict {R R' : Observed σ → Observed τ → Prop} {V : α → β → Prop} {op : Op σ α}
    {op' : Op τ β} (h : Sim Strict R R' V op op') (Excused : Fault → Prop) :
    Sim Excused R R' V op op' := by
  intro s t hst
  have hop := h s t hst
  revert hop
  generalize op s = r, op' t = r'
  intro hop
  cases hop with
  | ok answers states => exact .ok answers states
  | fault => exact .fault
  | excused h => exact False.elim h

section Report

variable {Excused : Fault → Prop} {R R' : Observed σ → Observed τ → Prop}

/-- Messages that can be put together, between devices whose logs do not matter. -/
theorem sim_report {c : Log.Category} {level : Log.Level} {text text' : MessageText}
    (ht : ∃ m, text () = .ok m) (ht' : ∃ m, text' () = .ok m)
    (h : ∀ s t log log', R s t → R' ⟨s.device, log⟩ ⟨t.device, log'⟩) :
    Sim Excused R R' (· = ·) (report c level text) (report c level text') := by
  obtain ⟨m, hm⟩ := ht
  obtain ⟨m', hm'⟩ := ht'
  intro s t hst
  -- Written or not, the message changes nothing but the log.
  obtain ⟨log, hs⟩ := report_of_text hm s
  obtain ⟨log', ht⟩ := report_of_text hm' t
  rw [hs, ht]
  exact .ok rfl (h s t log log' hst)

/-- Messages whose text cannot fail, between devices whose logs do not matter. -/
theorem sim_say {c : Log.Category} {level : Log.Level} {text text' : Unit → String}
    (h : ∀ s t log log', R s t → R' ⟨s.device, log⟩ ⟨t.device, log'⟩) :
    Sim Excused R R' (· = ·) (say c level text) (say c level text') :=
  sim_report ⟨_, rfl⟩ ⟨_, rfl⟩ h

end Report

section Rules

theorem unlogged_pure (a : α) : Unlogged (pure a : Op σ α) := sim_pure rfl

theorem unlogged_bind {op : Op σ α} {next : α → Op σ β} (h : Unlogged op)
    (hn : ∀ a, Unlogged (next a)) : Unlogged (op >>= next) :=
  sim_bind h fun a _ hab => hab ▸ hn a

theorem unlogged_device : Unlogged (device : Op σ σ) :=
  sim_device.mono (fun _ _ h => h) (fun _ _ ⟨_, _, h, hs, ht⟩ => hs ▸ ht ▸ h) (fun _ _ h => h)

theorem unlogged_update (f : σ → σ) : Unlogged (update f) :=
  sim_update fun _ _ h => congrArg f h

theorem unlogged_change (f : σ → α × σ) : Unlogged (change f) :=
  sim_change fun _ _ h => ⟨congrArg (fun d => (f d).1) h, congrArg (fun d => (f d).2) h⟩

theorem unlogged_check (value : Except Fault α) : Unlogged (check value : Op σ α) := sim_check

theorem unlogged_say {c : Log.Category} {level : Log.Level} {text : Unit → String} :
    Unlogged (say c level text : Op σ Unit) :=
  sim_say fun _ _ _ _ h => h

theorem unlogged_within {get : σ → τ} {set : τ → σ → σ} {op : Op τ α} (h : Unlogged op) :
    Unlogged (within get set op) := by
  refine sim_within h (fun s t hst => congrArg get hst) fun s t x y hst hxy => ?_
  show set x.device s.device = set y.device t.device
  rw [show s.device = t.device from hst, show x.device = y.device from hxy]

theorem unlogged_ite {c : Prop} [Decidable c] {op op' : Op σ α} (h : Unlogged op)
    (h' : Unlogged op') : Unlogged (if c then op else op') :=
  sim_ite (fun _ => h) fun _ => h'

/-- An operation for every item of a list. -/
theorem unlogged_forIn {items : List β} {body : β → γ → Op σ (ForInStep γ)}
    (h : ∀ b c, Unlogged (body b c)) (c : γ) : Unlogged (forIn items c body) := by
  -- The induction is on the items, for every state that the loop may have reached.
  induction items generalizing c with
  | nil =>
    rw [List.forIn_nil]
    exact unlogged_pure c
  | cons b items ih =>
    rw [List.forIn_cons]
    refine unlogged_bind (h b c) fun step => ?_
    cases step with
    | done c => exact unlogged_pure c
    | yield c => exact ih c

end Rules

end CardComputer.Op
