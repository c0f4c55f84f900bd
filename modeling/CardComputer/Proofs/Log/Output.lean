import CardComputer.Proofs.Log.Budgets

/-!
# The output of a log

Messages go to the log file if one is open, and to the standard stream otherwise. Either way a
message adds its lines to the output and touches nothing else but the budget of its category
(`Log.output_message`, `Log.exists_apply_message_of_wants`). As long as the limit leaves room,
messages that are wanted are all written, in their order (`Log.output_sayAll`), and however the log
is set, they add no more lines of a kind than there are among them (`Log.exists_output_sayAll`).
-/

namespace CardComputer

namespace Log

open Op

/-- What was written where messages are written now, newest first. -/
def output (log : Log) : List String :=
  match log.file with
  | some messages => messages
  | none => log.written

/-- The report that is due before the next message of a category that is admitted. -/
def overdue (log : Log) (c : Category) : List String :=
  if 0 < (log.budgets.get c).dropped then [(Line.drops c (log.budgets.get c).dropped).text] else []

/-- The log after some messages of one category and level, each of which may be refused. -/
def sayAll (log : Log) (c : Category) (level : Level) (texts : List String) : Log :=
  texts.foldl (fun log text => (Call.message c level fun _ => text).apply log) log

theorem sayAll_cons (log : Log) (c : Category) (level : Level) (text : String)
    (texts : List String) : log.sayAll c level (text :: texts) =
      ((Call.message c level fun _ => text).apply log).sayAll c level texts :=
  rfl

theorem sayAll_append (log : Log) (c : Category) (level : Level) (texts texts' : List String) :
    log.sayAll c level (texts ++ texts') = (log.sayAll c level texts).sayAll c level texts' :=
  List.foldl_append

/-! ## One message -/

section Message

variable {log : Log} {c : Category} {level : Level}

@[simp]
theorem output_write (log : Log) (message : String) :
    (log.write message).output = message :: log.output := by
  unfold write
  cases hfile : log.file with
  | none => simp only [output, hfile]
  | some messages => simp only [output, hfile]

/-- Writing changes nothing that decides about messages. -/
theorem exists_write_eq (log : Log) (message : String) :
    ∃ written file, log.write message = { log with written, file } := by
  unfold write
  split
  · exact ⟨_, _, rfl⟩
  · exact ⟨_, _, rfl⟩

/-- A budget that changes is no output. -/
theorem output_with_budgets (log : Log) (budgets : PerCategory Budget) :
    { log with budgets }.output = log.output :=
  rfl

/-- A wanted message changes its category's budget, and writes. -/
theorem exists_apply_message_of_wants (hwants : log.wants c level = true) (text : Unit → String) :
    ∃ written file, (Call.message c level text).apply log =
      { log with budgets := log.budgets.set c (log.verdict c).1, written, file } := by
  rw [Call.apply, consider, if_pos hwants, charge, verdict]
  obtain ⟨budget, admitted, report⟩ := (log.budgets.get c).charge log.rateLimit
  cases report with
  | none =>
    cases admitted with
    | false => exact ⟨_, _, rfl⟩
    | true => exact exists_write_eq { log with budgets := log.budgets.set c budget } _
  | some count =>
    -- The report is written first, and the message, if it is admitted, onto that.
    obtain ⟨written, file, hreport⟩ :=
      exists_write_eq { log with budgets := log.budgets.set c budget } (dropReport c count)
    dsimp only
    rw [hreport]
    cases admitted with
    | false => exact ⟨_, _, rfl⟩
    | true =>
      exact exists_write_eq { log with budgets := log.budgets.set c budget, written, file } _

/-- A message adds its lines to the output. -/
theorem output_message (log : Log) (c : Category) (level : Level) (text : Unit → String) :
    ((Call.message c level text).apply log).output =
      ((Call.message c level text).lines log).map Line.text ++ log.output := by
  cases hwants : log.wants c level with
  | false =>
    rw [apply_message_of_not_wants hwants, lines_of_not_wants hwants]
    rfl
  | true =>
    rw [Call.apply, Call.lines, consider, if_pos hwants, if_pos hwants, charge, verdict]
    -- Whether it is admitted and whether a report is due decide what is written.
    obtain ⟨budget, admitted, report⟩ := (log.budgets.get c).charge log.rateLimit
    cases admitted <;> cases report <;>
      simp [Line.text, Line.dropReport_eq_text, output_with_budgets]

end Message

/-! ## Messages in a row -/

section Room

variable {log : Log} {c : Category} {level : Level}

theorem overdue_eq_nil (h : (log.budgets.get c).dropped = 0) : log.overdue c = [] := by
  rw [overdue, h, if_neg (Nat.lt_irrefl 0)]

/-- A budget with room has nothing left to report after a message. -/
theorem Budget.dropped_charge_of_lt {limit : Nat} {b : Budget} (h : b.admitted < limit) :
    (b.charge limit).1.dropped = 0 := by
  unfold charge
  rw [if_pos h]
  split
  · rfl
  · rename_i hdropped
    exact Nat.eq_zero_of_not_pos hdropped

/-- A message for which there is room is written, right after the report that is due. -/
theorem output_message_of_room (hwants : log.wants c level = true)
    (hroom : (log.budgets.get c).admitted < log.rateLimit) (text : Unit → String) :
    ((Call.message c level text).apply log).output = text () :: log.overdue c ++ log.output := by
  rw [output_message, Call.lines, if_pos hwants, verdict, Budget.charge_admits,
    Budget.charge_of_lt hroom, decide_eq_true hroom, if_pos rfl, overdue]
  split
  · rfl
  · rfl

/-- Messages that are wanted and for which there is room are all written, in their order. A report
that was due before comes first. -/
theorem output_sayAll (hwants : log.wants c level = true) {texts : List String}
    (hroom : (log.budgets.get c).admitted + texts.length ≤ log.rateLimit) :
    (log.sayAll c level texts).output =
      texts.reverse ++ (if texts = [] then [] else log.overdue c) ++ log.output := by
  induction texts generalizing log with
  | nil => rfl
  | cons text texts ih =>
    rw [List.length_cons] at hroom
    have hfirst : (log.budgets.get c).admitted < log.rateLimit := by omega
    have houtput := output_message_of_room hwants hfirst fun _ => text
    obtain ⟨written, file, happly⟩ := exists_apply_message_of_wants hwants fun _ => text
    rw [happly] at houtput
    rw [sayAll_cons, happly, ih]
    · -- The first message has taken the report with it.
      have hnone := Budget.dropped_charge_of_lt hfirst
      rw [overdue_eq_nil (by rwa [PerCategory.get_set_self]), houtput]
      simp
    · exact hwants
    · rw [PerCategory.get_set_self, verdict, Budget.charge_admitted, if_pos hfirst]
      dsimp only
      omega

end Room

/-- Whatever the log is set to, messages add no more lines of a kind than there are among them,
if reports of refused messages are not of that kind. -/
theorem exists_output_sayAll {kind : String → Bool} {c : Category}
    (hreport : ∀ count, kind (Line.drops c count).text = false) (level : Level)
    (texts : List String) (log : Log) :
    ∃ lines, (log.sayAll c level texts).output = lines ++ log.output ∧
      lines.countP kind ≤ texts.countP kind := by
  induction texts generalizing log with
  | nil => exact ⟨[], rfl, Nat.le_refl 0⟩
  | cons text texts ih =>
    obtain ⟨lines, houtput, hcount⟩ := ih ((Call.message c level fun _ => text).apply log)
    -- The message itself, if it is written, is the only line that can be of the kind.
    have hfirst : (((Call.message c level fun _ => text).lines log).map Line.text).countP kind ≤
        if kind text then 1 else 0 := by
      rw [Call.lines]
      split
      · obtain ⟨budget, admitted, report⟩ := log.verdict c
        have hmessage : (Line.message c text).text = text := rfl
        cases admitted <;> cases report <;> simp [hmessage, hreport, List.countP_cons]
      · exact Nat.zero_le _
    refine ⟨lines ++ ((Call.message c level fun _ => text).lines log).map Line.text, ?_, ?_⟩
    · rw [sayAll_cons, houtput, output_message, List.append_assoc]
    · rw [List.countP_append, List.countP_cons]
      omega

end Log

namespace Op

open Log (Category Level Call)

variable {σ β : Type}

/-- A message is the call that it makes to the log. -/
theorem say_eq (c : Category) (level : Level) (text : Unit → String) (d : σ) (log : Log) :
    say c level text ⟨d, log⟩ = .ok () ⟨d, (Call.message c level text).apply log⟩ :=
  Call.perform_eq (.message c level text) d log

/-- A loop each round of which only says something. -/
theorem forIn_sayAll_eq {c : Category} {level : Level} {d : σ}
    {body : β → PUnit → Op σ (ForInStep PUnit)} {texts : β → List String}
    (h : ∀ b log, body b ⟨⟩ ⟨d, log⟩ = .ok (.yield ⟨⟩) ⟨d, log.sayAll c level (texts b)⟩)
    (items : List β) (log : Log) :
    forIn items ⟨⟩ body ⟨d, log⟩ = .ok ⟨⟩ ⟨d, log.sayAll c level (items.flatMap texts)⟩ := by
  induction items generalizing log with
  | nil => rfl
  | cons b items ih =>
    rw [List.forIn_cons, bind_of_ok (h b log), List.flatMap_cons, Log.sayAll_append]
    exact ih _

end Op

end CardComputer
