import CardComputer.Op

/-!
# Operations side by side

Two operations are run from related states, on devices that may be of different types. They agree
if both end well, with related answers in related states, or if both have the same fault
(`Op.Agree`). Some faults of the first operation can be excused: then nothing is asked of the second
one. This serves where the first machine can run out of numbers before the second.

`Op.Sim` says this of all related states at which the operations may start. There is one rule for
each way in which operations are built, so that a comparison follows the text of the operations.
-/

namespace CardComputer.Op

variable {σ τ σ' τ' α β γ δ : Type}

/-- No fault is excused. -/
abbrev Strict : Fault → Prop := fun _ => False

/-- Two results that agree, with some faults of the first one excused. -/
inductive Agree (Excused : Fault → Prop) (V : α → β → Prop) (R : Observed σ → Observed τ → Prop) :
    EStateM.Result Fault (Observed σ) α → EStateM.Result Fault (Observed τ) β → Prop
  /-- Both operations end well. -/
  | ok {a : α} {b : β} {s : Observed σ} {t : Observed τ} (answers : V a b) (states : R s t) :
      Agree Excused V R (.ok a s) (.ok b t)
  /-- Both operations have the same fault. -/
  | fault {f : Fault} {s : Observed σ} {t : Observed τ} :
      Agree Excused V R (.error f s) (.error f t)
  /-- The first operation has a fault that is excused. -/
  | excused {f : Fault} {s : Observed σ} {r : EStateM.Result Fault (Observed τ) β}
      (h : Excused f) : Agree Excused V R (.error f s) r

/-- Run from states related by `R`, two operations agree, with answers related by `V` and states
related by `R'`. -/
def Sim (Excused : Fault → Prop) (R R' : Observed σ → Observed τ → Prop) (V : α → β → Prop)
    (op : Op σ α) (op' : Op τ β) : Prop :=
  ∀ s t, R s t → Agree Excused V R' (op s) (op' t)

section Rules

variable {Excused : Fault → Prop} {R R' R'' : Observed σ → Observed τ → Prop}
  {V : α → β → Prop} {W : γ → δ → Prop}

/-- If the first of two agreeing operations ends well, so does the second. -/
theorem Agree.ok_right {r : EStateM.Result Fault (Observed τ) β} {a : α} {s : Observed σ}
    (h : Agree Excused V R (.ok a s) r) : ∃ b t, r = .ok b t ∧ V a b ∧ R s t := by
  cases h with
  | ok answers states => exact ⟨_, _, rfl, answers, states⟩

/-- Agreement carries over to weaker relations. -/
theorem Agree.mono {V' : α → β → Prop} {r : EStateM.Result Fault (Observed σ) α}
    {r' : EStateM.Result Fault (Observed τ) β} (h : Agree Excused V R r r')
    (hv : ∀ a b, V a b → V' a b) (hr : ∀ s t, R s t → R' s t) : Agree Excused V' R' r r' := by
  cases h with
  | ok answers states => exact .ok (hv _ _ answers) (hr _ _ states)
  | fault => exact .fault
  | excused h => exact .excused h

/-- What is known of where the first operation ends is known of where the two end. -/
theorem Agree.and_left {P : Observed σ → Prop} {r : EStateM.Result Fault (Observed σ) α}
    {r' : EStateM.Result Fault (Observed τ) β} (h : Agree Excused V R r r')
    (hp : ∀ a s, r = .ok a s → P s) : Agree Excused V (fun s t => R s t ∧ P s) r r' := by
  cases h with
  | ok answers states => exact .ok answers ⟨states, hp _ _ rfl⟩
  | fault => exact .fault
  | excused h => exact .excused h

/-- A comparison carries over to a stronger relation before and weaker ones after. -/
theorem Sim.mono {R₀ : Observed σ → Observed τ → Prop} {V' : α → β → Prop} {op : Op σ α}
    {op' : Op τ β} (h : Sim Excused R R' V op op') (hr : ∀ s t, R₀ s t → R s t)
    (hv : ∀ a b, V a b → V' a b) (hr' : ∀ s t, R' s t → R'' s t) :
    Sim Excused R₀ R'' V' op op' :=
  fun s t hst => (h s t (hr s t hst)).mono hv hr'

/-- A comparison holds of states of which more is known. -/
theorem Sim.and_pre {P : Observed σ → Observed τ → Prop} {op : Op σ α} {op' : Op τ β}
    (h : Sim Excused R R' V op op') : Sim Excused (fun s t => R s t ∧ P s t) R' V op op' :=
  fun s t hst => h s t hst.1

theorem sim_refl (op : Op σ α) : Sim Excused (· = ·) (· = ·) (· = ·) op op := by
  rintro s _ rfl
  cases op s with
  | ok a s' => exact .ok rfl rfl
  | error f s' => exact .fault

theorem sim_pure {a : α} {b : β} (h : V a b) : Sim Excused R R V (pure a) (pure b) :=
  fun _ _ hst => .ok h hst

/-- One operation after another. -/
theorem sim_bind {op : Op σ α} {op' : Op τ β} {next : α → Op σ γ} {next' : β → Op τ δ}
    (h : Sim Excused R R' V op op')
    (hn : ∀ a b, V a b → Sim Excused R' R'' W (next a) (next' b)) :
    Sim Excused R R'' W (op >>= next) (op' >>= next') := by
  intro s t hst
  show Agree Excused W R'' (EStateM.bind op next s) (EStateM.bind op' next' t)
  -- What comes after depends on the results of the first operations only.
  unfold EStateM.bind
  have hop := h s t hst
  revert hop
  generalize op s = r, op' t = r'
  intro hop
  cases hop with
  | ok answers states => exact hn _ _ answers _ _ states
  | fault => exact .fault
  | excused h => exact .excused h

/-- A first operation that succeeds, with nothing to match on the other side. -/
theorem sim_left_bind {op : Op σ α} {next : α → Op σ γ} {op' : Op τ δ}
    (h : ∀ s t, R s t → ∃ a s', op s = .ok a s' ∧ R' s' t)
    (hn : ∀ a, Sim Excused R' R'' W (next a) op') : Sim Excused R R'' W (op >>= next) op' := by
  intro s t hst
  obtain ⟨a, s', hop, hst'⟩ := h s t hst
  rw [bind_of_ok hop]
  exact hn a s' t hst'

/-- A last operation that succeeds, with nothing to match on the other side. -/
theorem sim_bind_left {op : Op σ α} {next : α → Op σ γ} {op' : Op τ δ} {V : α → δ → Prop}
    (h : Sim Excused R R' V op op')
    (hn : ∀ a b s t, V a b → R' s t → ∃ c s', next a s = .ok c s' ∧ W c b ∧ R'' s' t) :
    Sim Excused R R'' W (op >>= next) op' := by
  intro s t hst
  show Agree Excused W R'' (EStateM.bind op next s) (op' t)
  unfold EStateM.bind
  have hop := h s t hst
  revert hop
  generalize op s = r, op' t = r'
  intro hop
  cases hop with
  | ok answers states =>
    obtain ⟨c, s', hnext, hw, hst'⟩ := hn _ _ _ _ answers states
    dsimp only
    rw [hnext]
    exact .ok hw hst'
  | fault => exact .fault
  | excused h => exact .excused h

/-- Looking at the devices: they are those of related states. -/
theorem sim_device :
    Sim Excused R R (fun d e => ∃ s t, R s t ∧ s.device = d ∧ t.device = e) device device :=
  fun s t hst => .ok ⟨s, t, hst, rfl, rfl⟩ hst

/-- Changes that lead to related states. -/
theorem sim_update {f : σ → σ} {g : τ → τ}
    (h : ∀ s t, R s t → R' { s with device := f s.device } { t with device := g t.device }) :
    Sim Excused R R' (· = ·) (update f) (update g) :=
  fun s t hst => .ok rfl (h s t hst)

/-- Changes with answers. -/
theorem sim_change {f : σ → α × σ} {g : τ → β × τ}
    (h : ∀ s t, R s t → V (f s.device).1 (g t.device).1 ∧
      R' { s with device := (f s.device).2 } { t with device := (g t.device).2 }) :
    Sim Excused R R' V (change f) (change g) :=
  fun s t hst => .ok (h s t hst).1 (h s t hst).2

/-- A check that succeeds or not, in the same way on both sides. -/
theorem sim_check {value : Except Fault α} :
    Sim Excused R R (· = ·) (check value) (check value) := by
  intro s t hst
  cases value with
  | ok a => exact .ok rfl hst
  | error f => exact .fault

/-- Checks of which the second succeeds whenever the first does, and faults of the first are
excused. -/
theorem sim_check_of_ok {value : Except Fault α} {value' : Except Fault β}
    (h : ∀ a, value = .ok a → ∃ b, value' = .ok b ∧ V a b)
    (hf : ∀ f, value = .error f → Excused f) : Sim Excused R R V (check value) (check value') := by
  intro s t hst
  cases value with
  | ok a =>
    obtain ⟨b, rfl, hab⟩ := h a rfl
    exact .ok hab hst
  | error f => exact .excused (hf f rfl)

/-- Operations on parts of the devices. -/
theorem sim_within {P P' : Observed σ' → Observed τ' → Prop} {get : σ → σ'} {set : σ' → σ → σ}
    {get' : τ → τ'} {set' : τ' → τ → τ} {op : Op σ' α} {op' : Op τ' β}
    (h : Sim Excused P P' V op op')
    (hget : ∀ s t, R s t → P ⟨get s.device, s.log⟩ ⟨get' t.device, t.log⟩)
    (hset : ∀ s t x y, R s t → P' x y →
      R' ⟨set x.device s.device, x.log⟩ ⟨set' y.device t.device, y.log⟩) :
    Sim Excused R R' V (within get set op) (within get' set' op') := by
  intro s t hst
  unfold within
  have hop := h _ _ (hget s t hst)
  revert hop
  generalize op ⟨get s.device, s.log⟩ = r, op' ⟨get' t.device, t.log⟩ = r'
  intro hop
  cases hop with
  | ok answers states => exact .ok answers (hset s t _ _ hst states)
  | fault => exact .fault
  | excused h => exact .excused h

/-- The same message, on the same log. -/
theorem sim_report_same {c : Log.Category} {level : Log.Level} {text : MessageText}
    (hlog : ∀ s t, R s t → s.log = t.log)
    (h : ∀ s t log, R s t → R ⟨s.device, log⟩ ⟨t.device, log⟩) :
    Sim Excused R R (· = ·) (report c level text) (report c level text) := by
  intro s t hst
  unfold report
  -- Whether the message is written is for the log to say, which is the same.
  rw [← hlog s t hst]
  split
  · exact .ok rfl (h s t _ hst)
  · split
    · exact .ok rfl (h s t _ hst)
    · exact .fault

/-- A choice that both sides make alike. -/
theorem sim_ite {c : Prop} [Decidable c] {op op₂ : Op σ α} {op' op₂' : Op τ β}
    (h : c → Sim Excused R R' V op op') (h₂ : ¬c → Sim Excused R R' V op₂ op₂') :
    Sim Excused R R' V (if c then op else op₂) (if c then op' else op₂') := by
  split
  · exact h ‹_›
  · exact h₂ ‹_›

end Rules

end CardComputer.Op
