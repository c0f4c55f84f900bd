import CardComputer.Log.Level

/-!
# The log

A `Log` decides which messages are written, and keeps those that were. A category with a level of
its own follows that level, any other follows the global one.

Each category has a budget: only as many messages as the limit allows are written, and the rest
are counted. The first message refused is reported at once; later ones are reported together, right
before the next message that is admitted. Time does not pass here, so a budget is never renewed.
-/

namespace CardComputer

/-- What became of the messages of one category. -/
structure Log.Budget where
  /-- Messages admitted. -/
  admitted : Nat
  /-- Messages refused since the last report. -/
  dropped : Nat
  /-- Whether refused messages were reported before. -/
  reported : Bool
deriving DecidableEq

/-- The state of the log. -/
structure Log where
  /-- The level of categories that have none of their own. -/
  globalLevel : Log.Level
  /-- The categories' own levels; `off` where there is none. -/
  levels : Log.PerCategory Log.Level
  /-- How many messages each category may write. -/
  rateLimit : Nat
  /-- What became of each category's messages. -/
  budgets : Log.PerCategory Log.Budget
  /-- The messages written to the standard stream, newest first. -/
  written : List String
  /-- The messages written to the log file, newest first, if one is open. -/
  file : Option (List String)
deriving DecidableEq

namespace Log

/-- Nothing admitted and nothing refused. -/
def Budget.fresh : Budget := ⟨0, 0, false⟩

/-- The number of messages that a category may write unless another limit is set. -/
def defaultRateLimit : Nat := 60

/-- A log that lets nothing through. -/
def fresh : Log where
  globalLevel := .off
  levels := .const .off
  rateLimit := defaultRateLimit
  budgets := .const .fresh
  written := []
  file := none

/-- Whether messages of a category and a level are wanted. -/
def wants (log : Log) (c : Category) (level : Level) : Bool :=
  if level = .off then false
  else
    let own := log.levels.get c
    if own = .off then level ≤ log.globalLevel else level ≤ own

/-- Sets the level of categories that have none of their own. -/
def setGlobalLevel (log : Log) (level : Level) : Log :=
  { log with globalLevel := level }

/-- Sets a category's own level. -/
def setLevel (log : Log) (c : Category) (level : Level) : Log :=
  { log with levels := log.levels.set c level }

/-- Sets how many messages each category may write. -/
def setRateLimit (log : Log) (limit : Nat) : Log :=
  { log with rateLimit := limit }

/-- Switches every level off; budgets stay as they are. -/
def reset (log : Log) : Log :=
  { log with globalLevel := .off, levels := .const .off }

/-- Writes a message to the log file if one is open, else to the standard stream. -/
def write (log : Log) (message : String) : Log :=
  match log.file with
  | some messages => { log with file := some (message :: messages) }
  | none => { log with written := message :: log.written }

/-- Opens a log file, in place of one that was open. -/
def openFile (log : Log) : Log :=
  { log with file := some [] }

/-- Closes the log file. -/
def closeFile (log : Log) : Log :=
  { log with file := none }

/-- The verdict on one more message: the budget after it, whether it is admitted, and how many
refused messages to report before it. -/
def Budget.charge (limit : Nat) (b : Budget) : Budget × Bool × Option Nat :=
  if b.admitted < limit then
    -- Only a limit that was raised leaves refused messages to report here.
    if 0 < b.dropped then (⟨b.admitted + 1, 0, true⟩, true, some b.dropped)
    else ({ b with admitted := b.admitted + 1 }, true, none)
  else if b.reported then ({ b with dropped := b.dropped + 1 }, false, none)
  -- The first refusal is reported at once, itself included.
  else ({ b with dropped := 0, reported := true }, false, some (b.dropped + 1))

/-- The report of refused messages. -/
def dropReport (c : Category) (count : Nat) : String :=
  let name := Json.Named.name c
  s!"[{name}] WARNING: Rate limit exceeded, {count} log message(s) dropped in the last second"

/-- Counts one more wanted message against its category's budget, with a report of refused ones if
it is due, and says whether the message may be written. -/
def charge (log : Log) (c : Category) : Bool × Log :=
  let (budget, admitted, report) := (log.budgets.get c).charge log.rateLimit
  let log := { log with budgets := log.budgets.set c budget }
  match report with
  | some count => (admitted, log.write (dropReport c count))
  | none => (admitted, log)

/-- Whether a message would be written, and the log after it was considered. Only a message that
will be written is put together. -/
def consider (log : Log) (c : Category) (level : Level) : Bool × Log :=
  if log.wants c level then log.charge c else (false, log)

/-- The lines of messages that are kept newest first. -/
def lines (messages : List String) : List String :=
  messages.reverse.flatMap fun m => (m.splitToList (· == '\n'))

end Log

end CardComputer
