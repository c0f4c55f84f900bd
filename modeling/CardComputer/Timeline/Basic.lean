import CardComputer.Fault
import CardComputer.Timeline.Event

/-!
# The timeline

The pending events, in the order in which they will happen. Events that are scheduled for the same
time happen in the order in which they were scheduled, because each takes the next sequence number.

A timeline is stored as the list of its entries. When it is read back, numbering goes on after the
greatest number in the list.
-/

namespace CardComputer

/-- The pending events. -/
structure Timeline where
  /-- The entries, the next one first. -/
  entries : List Entry
  /-- The sequence number of the next event to be scheduled. -/
  nextSeq : UInt64
  /-- No entry goes before one that stands ahead of it. -/
  sorted : entries.Pairwise fun a b => b.before a = false
deriving DecidableEq

namespace Timeline

/-- A timeline without events. -/
def empty : Timeline := ⟨[], 0, .nil⟩

/-- Puts an entry into its place, behind those that do not go after it. -/
def insertEntry (e : Entry) : List Entry → List Entry
  | [] => [e]
  | x :: rest => if e.before x then e :: x :: rest else x :: insertEntry e rest

/-- Putting an entry into its place adds it and loses none. -/
theorem mem_insertEntry {e x : Entry} {entries : List Entry} :
    x ∈ insertEntry e entries ↔ x = e ∨ x ∈ entries := by
  induction entries with
  | nil => simp [insertEntry]
  | cons y rest ih =>
    unfold insertEntry
    split
    · simp
    · simp [ih, or_left_comm]

/-- Putting an entry into its place keeps the order. -/
theorem pairwise_insertEntry (e : Entry) {entries : List Entry}
    (h : entries.Pairwise fun a b => b.before a = false) :
    (insertEntry e entries).Pairwise fun a b => b.before a = false := by
  induction entries with
  | nil => simp [insertEntry]
  | cons x rest ih =>
    obtain ⟨hx, hrest⟩ := List.pairwise_cons.1 h
    unfold insertEntry
    split
    · rename_i hlt
      rw [Entry.before_iff] at hlt
      -- The entry comes first: what follows is not before the first of the rest.
      refine List.pairwise_cons.2 ⟨fun y hy => ?_, h⟩
      rw [← Bool.not_eq_true, Entry.before_iff]
      rcases List.mem_cons.1 hy with rfl | hy
      · omega
      · have := hx y hy
        rw [← Bool.not_eq_true, Entry.before_iff] at this
        omega
    · rename_i hlt
      refine List.pairwise_cons.2 ⟨fun y hy => ?_, ih hrest⟩
      rcases mem_insertEntry.1 hy with rfl | hy
      · simpa using hlt
      · exact hx y hy

/-- The timeline with one more entry. -/
def insert (t : Timeline) (e : Entry) : Timeline :=
  ⟨insertEntry e t.entries, t.nextSeq, pairwise_insertEntry e t.sorted⟩

/-- Schedules an event. -/
def schedule (t : Timeline) (time : UInt64) (event : Event) : Except Fault Timeline := do
  -- The last number is never given out, since none could follow it.
  let nextSeq ← checkedAdd t.nextSeq 1
  return { t.insert ⟨time, t.nextSeq, event⟩ with nextSeq }

/-- The time of the next event. -/
def nextTime? (t : Timeline) : Option UInt64 :=
  t.entries.head?.map Entry.time

/-- The next entry and the timeline without it, if there is one. -/
def pop? (t : Timeline) : Option (Entry × Timeline) :=
  match h : t.entries with
  | [] => none
  | e :: rest => some (e, ⟨rest, t.nextSeq, (List.pairwise_cons.1 (h ▸ t.sorted)).2⟩)

/-- The next entry and the timeline without it, if it happens at or before a time. -/
def popDue? (t : Timeline) (now : UInt64) : Option (Entry × Timeline) :=
  match t.pop? with
  | some (e, rest) => if e.time ≤ now then some (e, rest) else none
  | none => none

/-- The entries that happen at or before a time. -/
def due (t : Timeline) (now : UInt64) : List Entry :=
  t.entries.takeWhile fun e => e.time ≤ now

/-- The timeline without the entries that happen at or before a time. -/
def after (t : Timeline) (now : UInt64) : Timeline :=
  ⟨t.entries.dropWhile fun e => e.time ≤ now, t.nextSeq,
    t.sorted.sublist (List.dropWhile_sublist _)⟩

/-- The sequence number after the greatest of a list of entries. -/
def seqAfter : List Entry → Except Fault UInt64
  | [] => .ok 0
  | e :: rest => do
    let next ← checkedAdd e.seq 1
    return max next (← seqAfter rest)

/-- The timeline of a list of entries in any order. Entries with the same time and the same number,
which scheduling never makes, have no specified order among themselves; here they keep that of the
list. -/
def ofEntries (entries : List Entry) : Except Fault Timeline := do
  let nextSeq ← seqAfter entries
  return { entries.foldl insert empty with nextSeq }

/-! ## What the operations do -/

/-- Two timelines with the same entries and the same next number are the same. -/
theorem ext_entries {t t' : Timeline} (entries : t.entries = t'.entries)
    (nextSeq : t.nextSeq = t'.nextSeq) : t = t' := by
  cases t
  cases t'
  cases entries
  cases nextSeq
  rfl

/-- The next entry is the first one. -/
theorem pop?_eq_some {t rest : Timeline} {e : Entry} :
    t.pop? = some (e, rest) ↔ t.entries = e :: rest.entries ∧ t.nextSeq = rest.nextSeq := by
  unfold pop?
  split
  · rename_i heq
    simp [heq]
  · rename_i e' entries heq
    constructor
    · intro h
      cases h
      exact ⟨heq, rfl⟩
    · rintro ⟨hentries, hseq⟩
      rw [heq] at hentries
      cases hentries
      refine congrArg some (Prod.ext rfl ?_)
      exact ext_entries rfl hseq

theorem mem_of_pop {t rest : Timeline} {e : Entry} (h : t.pop? = some (e, rest)) :
    e ∈ t.entries := by
  rw [(pop?_eq_some.1 h).1]
  exact List.mem_cons_self

theorem mem_of_mem_rest {t rest : Timeline} {e x : Entry} (h : t.pop? = some (e, rest))
    (hx : x ∈ rest.entries) : x ∈ t.entries := by
  rw [(pop?_eq_some.1 h).1]
  exact List.mem_cons_of_mem e hx

theorem pop?_eq_none_iff {t : Timeline} : t.pop? = none ↔ t.entries = [] := by
  unfold pop?
  split
  · rename_i heq
    simp [heq]
  · rename_i heq
    simp [heq]

/-- A scheduled event has the next number. -/
theorem schedule_eq_ok {t t' : Timeline} {time : UInt64} {event : Event} :
    t.schedule time event = .ok t' ↔
      t'.entries = insertEntry ⟨time, t.nextSeq, event⟩ t.entries ∧
        t'.nextSeq.toNat = t.nextSeq.toNat + 1 := by
  unfold schedule
  cases hn : checkedAdd t.nextSeq 1 with
  | error f =>
    rw [checkedAdd_eq_error_iff] at hn
    have hlt := t'.nextSeq.toNat_lt
    constructor
    · intro h
      cases h
    · rintro ⟨-, h⟩
      have hn := hn.2
      simp only [UInt64.toNat_one, UInt64.size] at hn
      omega
  | ok nextSeq =>
    rw [checkedAdd_eq_ok_iff, UInt64.toNat_one] at hn
    constructor
    · intro h
      cases h
      exact ⟨rfl, hn⟩
    · rintro ⟨hentries, hseq⟩
      refine congrArg Except.ok (ext_entries hentries.symm ?_)
      exact UInt64.toNat_inj.1 (hn.trans hseq.symm)

/-- An entry of a timeline after scheduling is the new one or was there before. -/
theorem mem_schedule {t t' : Timeline} {time : UInt64} {event : Event} {e : Entry}
    (h : t.schedule time event = .ok t') :
    e ∈ t'.entries ↔ e = ⟨time, t.nextSeq, event⟩ ∨ e ∈ t.entries := by
  rw [(schedule_eq_ok.1 h).1, mem_insertEntry]

/-! ## Time left -/

/-- The cycles from each entry's time to a later time, added up. -/
def timeLeft (target : UInt64) (t : Timeline) : Nat :=
  (t.entries.map fun e => target.toNat - e.time.toNat).foldr (· + ·) 0

/-- Putting an entry into its place adds its share to every sum over the entries. -/
theorem sum_insertEntry (f : Entry → Nat) (e : Entry) (entries : List Entry) :
    ((insertEntry e entries).map f).foldr (· + ·) 0 =
      f e + (entries.map f).foldr (· + ·) 0 := by
  induction entries with
  | nil => simp [insertEntry]
  | cons x rest ih =>
    unfold insertEntry
    split
    · simp
    · simp [ih]
      omega

/-- Scheduling adds the cycles from the time of the event. -/
theorem timeLeft_schedule {t t' : Timeline} {time : UInt64} {event : Event}
    (h : t.schedule time event = .ok t') (target : UInt64) :
    t'.timeLeft target = t.timeLeft target + (target.toNat - time.toNat) := by
  unfold schedule at h
  cases hn : checkedAdd t.nextSeq 1 with
  | error fault =>
    rw [hn] at h
    cases h
  | ok nextSeq =>
    rw [hn] at h
    cases h
    simp [timeLeft, insert, sum_insertEntry]
    omega

/-- Taking the next entry away subtracts the cycles from its time. -/
theorem timeLeft_pop {t rest : Timeline} {e : Entry} (h : t.pop? = some (e, rest))
    (target : UInt64) :
    t.timeLeft target = (target.toNat - e.time.toNat) + rest.timeLeft target := by
  unfold pop? at h
  split at h
  · cases h
  · rename_i heq
    cases h
    simp [timeLeft, heq]

/-- The next entry happens at the time of the next event. -/
theorem pop?_time {t rest : Timeline} {e : Entry} (h : t.pop? = some (e, rest)) :
    t.nextTime? = some e.time := by
  unfold pop? at h
  split at h
  · cases h
  · rename_i heq
    cases h
    simp [nextTime?, heq]

/-- Without a next entry there is no time of it. -/
theorem pop?_eq_none {t : Timeline} (h : t.pop? = none) : t.nextTime? = none := by
  unfold pop? at h
  split at h
  · rename_i heq
    simp [nextTime?, heq]
  · cases h

/-- The stored form of a timeline. -/
def encode (t : Timeline) : Json := Json.encode t.entries

end Timeline

end CardComputer
