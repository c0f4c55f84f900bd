import CardComputer.Proofs.Timeline.Order
import Mathlib.Algebra.Group.Nat.Defs

/-!
# The timeline as a queue

What a timeline has to do can be said without numbers: the pending events with their times are kept
in the order in which they were scheduled (`Timeline.Backlog`), and the one that is taken off is the
first of those with the least time (`Timeline.Serves`). A timeline does this, also if it is stored
and read back between the uses (`Timeline.serves_in_order`), as long as its numbers give the order
of the backlog (`Timeline.Keeps`), which every use preserves (`Timeline.Keeps.perform`).

Entries that are read in whatever order make the same timeline (`Timeline.ofEntries_of_perm`), which
takes them to be scheduled in the order of their numbers (`Timeline.exists_keeps`).
-/

namespace CardComputer

/-- An entry without its number. -/
def Entry.unnumbered (e : Entry) : UInt64 × Event := (e.time, e.event)

namespace Timeline

/-! ## Uses -/

/-- What is done with a timeline. -/
inductive Use where
  | schedule (time : UInt64) (event : Event)
  /-- Takes the next entry off if it happens at or before a time. -/
  | pop (now : UInt64)
  /-- Stores the timeline and reads it back. -/
  | reload

/-- The timeline that is stored in a value, if its entries can be read and numbered on. -/
def read? (v : Json) : Option Timeline := do
  let entries ← (Json.decode v : Except Json.DecodeError (List Entry)).toOption
  (ofEntries entries).toOption

/-- The entry that a use takes off and the timeline after it, if the use succeeds. -/
def Use.perform? (t : Timeline) : Use → Option (Option Entry × Timeline)
  | schedule time event => (t.schedule time event).toOption.map fun t' => (none, t')
  | pop now =>
    match t.popDue? now with
    | some (e, rest) => some (some e, rest)
    | none => some (none, t)
  | reload => (read? t.encode).map fun t' => (none, t')

/-- Uses one after the other. -/
def performAll? : List Use → Timeline → Option (List (Option Entry) × Timeline)
  | [], t => some ([], t)
  | use :: uses, t => do
    let (answer, t) ← use.perform? t
    let (answers, t) ← performAll? uses t
    return (answer :: answers, t)

/-- Two uses succeed one after the other if the second does where the first ends. -/
theorem performAll?_cons {use : Use} {uses : List Use} {t t' u : Timeline} {answer : Option Entry}
    {answers : List (Option Entry)} (first : use.perform? t = some (answer, t'))
    (rest : performAll? uses t' = some (answers, u)) :
    performAll? (use :: uses) t = some (answer :: answers, u) := by
  simp [performAll?, first, rest]

/-! ## Backlogs -/

/-- The pending events with their times, in the order in which they were scheduled. -/
abbrev Backlog := List (UInt64 × Event)

/-- What a use does to a backlog, and what it takes off. -/
inductive Serves : Backlog → Use → Option (UInt64 × Event) → Backlog → Prop
  /-- What is scheduled comes last. -/
  | schedule {pending : Backlog} {time : UInt64} {event : Event} :
    Serves pending (.schedule time event) none (pending ++ [(time, event)])
  /-- The first of those with the least time is taken off. -/
  | pop {ahead behind : Backlog} {next : UInt64 × Event} {now : UInt64} (due : next.1 ≤ now)
    (least : ∀ p ∈ ahead, next.1 < p.1) (first : ∀ p ∈ behind, next.1 ≤ p.1) :
    Serves (ahead ++ next :: behind) (.pop now) (some next) (ahead ++ behind)
  /-- Nothing is due. -/
  | wait {pending : Backlog} {now : UInt64} (later : ∀ p ∈ pending, now < p.1) :
    Serves pending (.pop now) none pending
  | reload {pending : Backlog} : Serves pending .reload none pending

/-- What uses do to a backlog one after the other, and what they take off. -/
inductive ServesAll : Backlog → List Use → List (Option (UInt64 × Event)) → Backlog → Prop
  | nil {pending : Backlog} : ServesAll pending [] [] pending
  | cons {pending pending' last : Backlog} {use : Use} {uses : List Use}
    {answer : Option (UInt64 × Event)} {answers : List (Option (UInt64 × Event))}
    (first : Serves pending use answer pending') (rest : ServesAll pending' uses answers last) :
    ServesAll pending (use :: uses) (answer :: answers) last

/-- What is scheduled by uses. -/
def scheduled (uses : List Use) : Backlog :=
  uses.filterMap fun
    | .schedule time event => some (time, event)
    | _ => none

/-- What the first use schedules comes before what the others do. -/
theorem scheduled_cons (use : Use) (uses : List Use) :
    scheduled (use :: uses) = scheduled [use] ++ scheduled uses :=
  List.filterMap_append (l := [use])

/-- Nothing is lost by a use, and nothing is there twice. -/
theorem Serves.perm {pending pending' : Backlog} {use : Use} {answer : Option (UInt64 × Event)}
    (h : Serves pending use answer pending') :
    (answer.toList ++ pending').Perm (pending ++ scheduled [use]) := by
  cases h with
  | schedule => exact .refl _
  | @pop ahead behind next now due least first =>
    show (next :: (ahead ++ behind)).Perm (ahead ++ next :: behind ++ [])
    rw [List.append_nil]
    exact List.perm_middle.symm
  | wait later => exact .of_eq (List.append_nil _).symm
  | reload => exact .of_eq (List.append_nil _).symm

/-- What was taken off and what is pending are together what there was at first and what was
scheduled. -/
theorem ServesAll.perm {initial pending : Backlog} {uses : List Use}
    {answers : List (Option (UInt64 × Event))} (h : ServesAll initial uses answers pending) :
    (answers.filterMap id ++ pending).Perm (initial ++ scheduled uses) := by
  -- What the first use leaves pending is what the others find.
  induction h with
  | nil => exact .of_eq (List.append_nil _).symm
  | @cons initial pending' last use uses answer answers first rest ih =>
    have taken : (answer :: answers).filterMap id = answer.toList ++ answers.filterMap id := by
      cases answer <;> rfl
    rw [taken, scheduled_cons, List.append_assoc, ← List.append_assoc initial]
    calc (answer.toList ++ (answers.filterMap id ++ last)).Perm
          (answer.toList ++ (pending' ++ scheduled uses)) := ih.append_left _
      List.Perm _ (answer.toList ++ pending' ++ scheduled uses) :=
        .of_eq (List.append_assoc ..).symm
      List.Perm _ (initial ++ scheduled [use] ++ scheduled uses) := first.perm.append_right _

/-! ## What a timeline keeps -/

/-- A timeline has the entries of a backlog, the numbers of which give the order of the backlog. No
number beyond a bound was given out. -/
structure Keeps (t : Timeline) (backlog : List Entry) (bound : Nat) : Prop where
  /-- The entries are those of the backlog. -/
  entries : t.entries.Perm backlog
  /-- What was scheduled later has a greater number. -/
  numbered : backlog.Pairwise fun a b => a.seq < b.seq
  /-- No two entries have the same place, and numbers are given out upwards. -/
  orderly : t.Orderly
  /-- Numbers are left. -/
  room : t.nextSeq.toNat ≤ bound

/-- A new timeline keeps nothing. -/
theorem Keeps.empty : Keeps empty [] 0 where
  entries := .refl _
  numbered := .nil
  orderly := ⟨.nil, nofun⟩
  room := Nat.le_refl 0

/-- What is scheduled becomes the last of the backlog. -/
theorem Keeps.schedule {t : Timeline} {backlog : List Entry} {bound : Nat}
    (h : t.Keeps backlog bound) (left : bound + 1 < 2 ^ 64) (time : UInt64) (event : Event) :
    ∃ t', t.schedule time event = .ok t' ∧
      t'.Keeps (backlog ++ [⟨time, t.nextSeq, event⟩]) (bound + 1) := by
  have room := h.room
  obtain ⟨next, hnext⟩ : ∃ next, checkedAdd t.nextSeq 1 = .ok next :=
    exists_checkedAdd (by rw [UInt64.toNat_one, UInt64.size]; omega)
  have done : t.schedule time event =
      .ok { t.insert ⟨time, t.nextSeq, event⟩ with nextSeq := next } := by
    unfold Timeline.schedule
    rw [hnext]
    rfl
  obtain ⟨hentries, hseq⟩ := schedule_eq_ok.1 done
  refine ⟨_, done, ?_, ?_, h.orderly.schedule done, by omega⟩
  · rw [hentries]
    exact (perm_insertEntry _ _).trans
      ((h.entries.cons _).trans (List.perm_append_singleton _ _).symm)
  · refine List.pairwise_append.2 ⟨h.numbered, List.pairwise_singleton .., fun e he x hx => ?_⟩
    rw [List.mem_singleton.1 hx]
    exact h.orderly.fresh e (h.entries.mem_iff.2 he)

/-- The entry that is taken off is the first of the backlog that has the least time, and the others
are kept. -/
theorem Keeps.pop {t rest : Timeline} {backlog : List Entry} {bound : Nat} {e : Entry}
    (h : t.Keeps backlog bound) (hp : t.pop? = some (e, rest)) :
    ∃ ahead behind, backlog = ahead ++ e :: behind ∧ (∀ x ∈ ahead, e.time < x.time) ∧
      (∀ x ∈ behind, e.time ≤ x.time) ∧ rest.Keeps (ahead ++ behind) bound := by
  obtain ⟨hentries, hseq⟩ := pop?_eq_some.1 hp
  obtain ⟨ahead, behind, rfl⟩ :=
    List.append_of_mem (h.entries.mem_iff.1 (hentries ▸ List.mem_cons_self : e ∈ t.entries))
  have others : rest.entries.Perm (ahead ++ behind) :=
    (hentries ▸ h.entries.trans List.perm_middle : (e :: rest.entries).Perm _).cons_inv
  obtain ⟨-, hbehind, hahead⟩ := List.pairwise_append.1 h.numbered
  refine ⟨ahead, behind, rfl, fun x hx => ?_, fun x hx => ?_, others, ?_, h.orderly.pop hp,
    hseq ▸ h.room⟩
  · -- An entry ahead has a lesser number, so only its time can let the next one go first.
    have place := Entry.before_iff.1
      (h.orderly.before_of_pop hp (others.mem_iff.2 (List.mem_append_left _ hx)))
    have number := UInt64.lt_iff_toNat_lt.1 (hahead x hx e List.mem_cons_self)
    rw [UInt64.lt_iff_toNat_lt]
    omega
  · have place := Entry.before_iff.1
      (h.orderly.before_of_pop hp (others.mem_iff.2 (List.mem_append_right _ hx)))
    rw [UInt64.le_iff_toNat_le]
    omega
  · exact h.numbered.sublist ((List.sublist_cons_self e behind).append_left ahead)

/-- A timeline that is stored is read back with what it keeps. -/
theorem Keeps.reload {t : Timeline} {backlog : List Entry} {bound : Nat}
    (h : t.Keeps backlog bound) : ∃ t', read? t.encode = some t' ∧ t'.Keeps backlog bound := by
  obtain ⟨t', read, entries, next, orderly⟩ := h.orderly.ofEntries
  have stored : read? t.encode = some t' := by
    unfold read? encode
    rw [Json.decode_encode]
    show (ofEntries t.entries).toOption = some t'
    rw [read]
    rfl
  exact ⟨t', stored, entries ▸ h.entries, h.numbered, orderly,
    Nat.le_trans (UInt64.le_iff_toNat_le.1 next) h.room⟩

/-- A use of a timeline that keeps a backlog succeeds as long as numbers are left. It does to the
backlog what it has to do, and the timeline keeps what is left. -/
theorem Keeps.perform {t : Timeline} {backlog : List Entry} {bound : Nat} (use : Use)
    (h : t.Keeps backlog bound) (left : bound + (scheduled [use]).length < 2 ^ 64) :
    ∃ answer t' backlog', use.perform? t = some (answer, t') ∧
      Serves (backlog.map Entry.unnumbered) use (answer.map Entry.unnumbered)
        (backlog'.map Entry.unnumbered) ∧
      t'.Keeps backlog' (bound + (scheduled [use]).length) := by
  cases use with
  | schedule time event =>
    obtain ⟨t', done, keeps⟩ := h.schedule left time event
    refine ⟨none, t', _, ?_, ?_, keeps⟩
    · rw [Use.perform?, done]
      rfl
    · rw [List.map_append]
      exact .schedule
  | pop now =>
    cases hp : t.pop? with
    | none =>
      have nothing : backlog = [] := (pop?_eq_none_iff.1 hp ▸ h.entries).nil_eq.symm
      refine ⟨none, t, backlog, ?_, .wait ?_, h⟩
      · simp [Use.perform?, popDue?, hp]
      · simp [nothing]
    | some popped =>
      obtain ⟨e, rest⟩ := popped
      obtain ⟨ahead, behind, rfl, least, first, keeps⟩ := h.pop hp
      by_cases due : e.time ≤ now
      · refine ⟨some e, rest, ahead ++ behind, ?_, ?_, keeps⟩
        · simp [Use.perform?, popDue?, hp, due]
        · rw [List.map_append, List.map_append, List.map_cons]
          exact .pop due (List.forall_mem_map.2 least) (List.forall_mem_map.2 first)
      · refine ⟨none, t, ahead ++ e :: behind, ?_, .wait (List.forall_mem_map.2 fun x hx => ?_), h⟩
        · simp [Use.perform?, popDue?, hp, due]
        · -- The next entry is not due, and the others happen no earlier.
          have later : now < e.time := UInt64.not_le.1 due
          rcases List.mem_append.1 hx with hx | hx
          · exact UInt64.lt_trans later (least x hx)
          · rcases List.mem_cons.1 hx with rfl | hx
            · exact later
            · exact UInt64.lt_of_lt_of_le later (first x hx)
  | reload =>
    obtain ⟨t', read, keeps⟩ := h.reload
    refine ⟨none, t', backlog, ?_, .reload, keeps⟩
    simp [Use.perform?, read]

/-- Uses of a timeline that keeps a backlog do to the backlog what they have to do, as long as
numbers are left. -/
theorem Keeps.performAll {uses : List Use} {t : Timeline} {backlog : List Entry} {bound : Nat}
    (h : t.Keeps backlog bound) (left : bound + (scheduled uses).length < 2 ^ 64) :
    ∃ answers t' backlog', performAll? uses t = some (answers, t') ∧
      ServesAll (backlog.map Entry.unnumbered) uses (answers.map (Option.map Entry.unnumbered))
        (backlog'.map Entry.unnumbered) ∧
      t'.Keeps backlog' (bound + (scheduled uses).length) := by
  induction uses generalizing t backlog bound with
  | nil => exact ⟨[], t, backlog, rfl, .nil, h⟩
  | cons use uses ih =>
    rw [scheduled_cons, List.length_append, ← Nat.add_assoc] at left ⊢
    obtain ⟨answer, t', backlog', done, serves, keeps⟩ := h.perform use (by omega)
    obtain ⟨answers, u, last, rest, servesAll, kept⟩ := ih keeps left
    exact ⟨answer :: answers, u, last, performAll?_cons done rest, .cons serves servesAll, kept⟩

/-- A timeline serves uses: they succeed and take off what they have to take off from a backlog.
What is pending then is on the timeline, and with what was taken off it is all there was at first
and all that was scheduled. -/
def Serving (t : Timeline) (initial : Backlog) (uses : List Use) : Prop :=
  ∃ answers t' pending, performAll? uses t = some (answers, t') ∧
    ServesAll initial uses (answers.map (Option.map Entry.unnumbered)) pending ∧
    (t'.entries.map Entry.unnumbered).Perm pending ∧
    ((answers.filterMap id ++ t'.entries).map Entry.unnumbered).Perm (initial ++ scheduled uses)

/-- A timeline that keeps a backlog serves uses for which numbers are left. -/
theorem Keeps.serving {uses : List Use} {t : Timeline} {backlog : List Entry} {bound : Nat}
    (h : t.Keeps backlog bound) (left : bound + (scheduled uses).length < 2 ^ 64) :
    t.Serving (backlog.map Entry.unnumbered) uses := by
  obtain ⟨answers, t', backlog', done, serves, keeps⟩ := h.performAll left
  have onTimeline := keeps.entries.map Entry.unnumbered
  have taken : (answers.map (Option.map Entry.unnumbered)).filterMap id =
      (answers.filterMap id).map Entry.unnumbered := by
    rw [List.filterMap_map, List.map_filterMap]
    rfl
  refine ⟨answers, t', _, done, serves, onTimeline, ?_⟩
  rw [List.map_append, ← taken]
  exact (onTimeline.append_left _).trans serves.perm

/-! ## Entries that are read -/

/-- Entries that can be numbered on make a timeline, which has them and the number found. -/
theorem exists_ofEntries {entries : List Entry} {next : UInt64} (h : seqAfter entries = .ok next) :
    ∃ t, ofEntries entries = .ok t ∧ t.entries.Perm entries ∧ t.nextSeq = next := by
  obtain ⟨t, ht⟩ : ∃ t, ofEntries entries = .ok t := by
    unfold ofEntries
    rw [h]
    exact ⟨_, rfl⟩
  obtain ⟨perm, next'⟩ := ofEntries_eq_ok ht
  exact ⟨t, ht, perm, Except.ok.inj (next'.symm.trans h)⟩

/-- Entries in whatever order are numbered on alike. -/
theorem seqAfter_of_perm {entries loaded : List Entry} {next : UInt64} (perm : loaded.Perm entries)
    (h : seqAfter entries = .ok next) : seqAfter loaded = .ok next := by
  -- Each of the two bounds the numbers of the other.
  obtain ⟨after, hafter, hle⟩ :=
    seqAfter_of_lt fun e he => lt_of_seqAfter h e (perm.mem_iff.1 he)
  obtain ⟨next', hnext', hge⟩ :=
    seqAfter_of_lt fun e he => lt_of_seqAfter hafter e (perm.mem_iff.2 he)
  obtain rfl : next' = next := Except.ok.inj (hnext'.symm.trans h)
  rw [hafter, UInt64.le_antisymm hle hge]

/-- Different numbers leave no two entries in the same place. -/
theorem strict_of_nodup {t : Timeline} (numbers : (t.entries.map Entry.seq).Nodup) :
    t.entries.Pairwise fun a b => a.before b = true := by
  refine (t.sorted.and (List.pairwise_map.1 numbers)).imp fun {a b} h => ?_
  obtain ⟨hnot, hne⟩ := h
  have hne : a.seq.toNat ≠ b.seq.toNat := fun heq => hne (UInt64.toNat_inj.1 heq)
  rw [← Bool.not_eq_true, Entry.before_iff] at hnot
  rw [Entry.before_iff]
  omega

/-- Entries with different numbers make the same timeline in whatever order they are read. -/
theorem ofEntries_of_perm {entries loaded : List Entry} {t : Timeline} (perm : loaded.Perm entries)
    (numbers : (entries.map Entry.seq).Nodup) (h : ofEntries entries = .ok t) :
    ofEntries loaded = .ok t := by
  obtain ⟨entries_perm, next⟩ := ofEntries_eq_ok h
  obtain ⟨u, hu, loaded_perm, nextSeq_eq⟩ := exists_ofEntries (seqAfter_of_perm perm next)
  have same : u.entries.Perm t.entries := loaded_perm.trans (perm.trans entries_perm.symm)
  have numbers_t : (t.entries.map Entry.seq).Nodup :=
    (entries_perm.map Entry.seq).nodup_iff.2 numbers
  have numbers_u : (u.entries.map Entry.seq).Nodup :=
    (same.map Entry.seq).nodup_iff.2 numbers_t
  -- There is only one order of entries no two of which have the same place.
  have entries_eq : u.entries = t.entries := by
    refine same.eq_of_pairwise (fun a b _ _ hab hba => ?_) (strict_of_nodup numbers_u)
      (strict_of_nodup numbers_t)
    rw [Entry.before_iff] at hab hba
    omega
  rw [hu, ext_entries entries_eq nextSeq_eq]

/-- Entries with different numbers can be put into the order of their numbers. -/
theorem exists_numbered {entries : List Entry} (numbers : (entries.map Entry.seq).Nodup) :
    ∃ numbered : List Entry, numbered.Perm entries ∧
      numbered.Pairwise fun a b => a.seq < b.seq := by
  have perm := List.mergeSort_perm entries fun a b => decide (a.seq ≤ b.seq)
  refine ⟨_, perm, ?_⟩
  have ascending : (entries.mergeSort fun a b => decide (a.seq ≤ b.seq)).Pairwise
      fun a b => decide (a.seq ≤ b.seq) = true := by
    refine List.pairwise_mergeSort (fun a b c hab hbc => ?_) (fun a b => ?_) entries
    · rw [decide_eq_true_eq] at hab hbc ⊢
      exact UInt64.le_trans hab hbc
    · rw [Bool.or_eq_true, decide_eq_true_eq, decide_eq_true_eq]
      exact UInt64.le_total a.seq b.seq
  -- No two numbers are equal, so the order is strict.
  have different := List.pairwise_map.1 ((perm.map Entry.seq).nodup_iff.2 numbers)
  exact (ascending.and different).imp fun h =>
    UInt64.lt_of_le_of_ne (of_decide_eq_true h.1) h.2

/-- Entries with different numbers below a bound make a timeline that keeps them in the order of
their numbers. -/
theorem exists_keeps {entries : List Entry} {bound : Nat} (small : bound < 2 ^ 64)
    (numbers : (entries.map Entry.seq).Nodup) (below : ∀ e ∈ entries, e.seq.toNat < bound) :
    ∃ t backlog, ofEntries entries = .ok t ∧ backlog.Perm entries ∧ t.Keeps backlog bound := by
  -- Below the bound none of the entries has the last number.
  have bound_toNat : (UInt64.ofNat bound).toNat = bound := UInt64.toNat_ofNat_of_lt small
  have below' : ∀ e ∈ entries, e.seq < UInt64.ofNat bound := by
    intro e he
    rw [UInt64.lt_iff_toNat_lt, bound_toNat]
    exact below e he
  obtain ⟨next, hnext, hle⟩ := seqAfter_of_lt below'
  obtain ⟨t, ht, perm, rfl⟩ := exists_ofEntries hnext
  obtain ⟨backlog, hbacklog, ascending⟩ := exists_numbered numbers
  refine ⟨t, backlog, ht, hbacklog, perm.trans hbacklog.symm, ascending, ⟨?_, ?_⟩,
    bound_toNat ▸ UInt64.le_iff_toNat_le.1 hle⟩
  · exact strict_of_nodup ((perm.map Entry.seq).nodup_iff.2 numbers)
  · exact fun e he => lt_of_seqAfter hnext e (perm.mem_iff.1 he)

/-- A timeline gives its entries up one by one, whenever they happen, and has no others. -/
def Gives (t : Timeline) (order : List Entry) : Prop :=
  ∃ empty, performAll? (order.map fun e => .pop e.time) t = some (order.map some, empty) ∧
    empty.entries = []

/-- A timeline gives its entries up in their order. -/
theorem gives_entries {entries : List Entry} {t : Timeline} (h : t.entries = entries) :
    t.Gives entries := by
  induction entries generalizing t with
  | nil => exact ⟨t, rfl, h⟩
  | cons e rest ih =>
    have sorted := t.sorted
    rw [h] at sorted
    let t' : Timeline := ⟨rest, t.nextSeq, (List.pairwise_cons.1 sorted).2⟩
    have hp : t.pop? = some (e, t') := pop?_eq_some.2 ⟨h, rfl⟩
    have first : (Use.pop e.time).perform? t = some (some e, t') := by
      simp [Use.perform?, popDue?, hp]
    obtain ⟨u, others, none⟩ := ih (t := t') rfl
    exact ⟨u, performAll?_cons first others, none⟩

/-! ## The order in which events come off -/

/-- A timeline is a stable queue. From an empty one on, whatever is done with it, as long as there
are numbers for what is scheduled, the entry taken off is the first scheduled of those with the
least time if it is due; if none is due, nothing changes. Nothing is lost and nothing is there
twice, and storing the timeline and reading it back in between makes no difference.

Entries with different numbers, far from the last one, are read back as the same timeline in
whatever order they stand. It gives them up in the order of their times and numbers, and from then
on takes them to be scheduled in the order of their numbers, before all that is scheduled later. -/
theorem serves_in_order :
    (∀ uses : List Use, (scheduled uses).length < 2 ^ 64 → empty.Serving [] uses) ∧
    ∀ entries : List Entry, (entries.map Entry.seq).Nodup →
      (∀ e ∈ entries, e.seq.toNat < 2 ^ 63) →
      ∃ t, (∀ loaded : List Entry, loaded.Perm entries → read? (Json.encode loaded) = some t) ∧
        (∃ order : List Entry, order.Perm entries ∧
          (order.Pairwise fun a b => a.before b = true) ∧ t.Gives order) ∧
        ∃ numbered : List Entry, numbered.Perm entries ∧
          (numbered.Pairwise fun a b => a.seq < b.seq) ∧
          ∀ uses : List Use, (scheduled uses).length < 2 ^ 63 →
            t.Serving (numbered.map Entry.unnumbered) uses := by
  refine ⟨fun uses few => Keeps.empty.serving (by omega), fun entries numbers below => ?_⟩
  obtain ⟨t, backlog, read, perm, keeps⟩ :=
    exists_keeps (by decide : 2 ^ 63 < 2 ^ 64) numbers below
  refine ⟨t, fun loaded hloaded => ?_, ⟨t.entries, keeps.entries.trans perm,
    keeps.orderly.strict, gives_entries rfl⟩, backlog, perm, keeps.numbered,
    fun uses few => keeps.serving (by omega)⟩
  unfold read?
  rw [Json.decode_encode]
  show (ofEntries loaded).toOption = some t
  rw [ofEntries_of_perm hloaded numbers read]
  rfl

/-- Two events of one time are scheduled around storing the timeline, which then makes no difference
to their order; and two entries are read in the order of their numbers, before what is scheduled
then. -/
theorem serves_in_order_of_equal_times :
    empty.Serving [] [.schedule 5 (.speechDone 1), .reload, .schedule 5 .displayTick, .pop 5] ∧
    ∃ t, read? (Json.encode [⟨5, 9, .displayTick⟩, (⟨5, 2, .barcodeShift⟩ : Entry)]) = some t ∧
      t.Serving [(5, .barcodeShift), (5, .displayTick)] [.schedule 5 (.speechDone 1), .pop 5] := by
  have few : (scheduled [.schedule 5 (.speechDone 1), .reload, .schedule 5 .displayTick,
      .pop 5]).length < 2 ^ 64 := by decide
  refine ⟨serves_in_order.1 _ few, ?_⟩
  obtain ⟨t, read, -, numbered, perm, ascending, serving⟩ :=
    serves_in_order.2 [⟨5, 9, .displayTick⟩, ⟨5, 2, .barcodeShift⟩] (by decide) (by decide)
  have order : numbered = [⟨5, 2, .barcodeShift⟩, ⟨5, 9, .displayTick⟩] :=
    (perm.trans (.swap _ _ _)).eq_of_pairwise
      (fun a b _ _ hab hba => absurd (UInt64.lt_trans hab hba) (UInt64.lt_irrefl _)) ascending
      (by decide)
  rw [order] at serving
  exact ⟨t, read _ (.refl _), serving _ (by decide)⟩

end Timeline

end CardComputer
