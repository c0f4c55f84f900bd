import CardComputer.Proofs.Timeline.Order

/-!
# The events of a kind

The entries of a timeline whose events are of some kind (`Timeline.ofKind`) stand in the order of
the timeline, whatever stands between them. An event of another kind that is scheduled or taken away
leaves them alone (`Timeline.ofKind_schedule_of_ne`, `Timeline.ofKind_pop_of_ne`); an event of the
kind is put into its place among them (`Timeline.ofKind_schedule`). The times of these entries,
added up (`Timeline.pendingTime`), change by the time of the one that comes or goes.
-/

namespace CardComputer.Timeline

/-- Putting an entry into its place does nothing to the others. -/
theorem filter_insertEntry_of_neg {p : Entry → Bool} {e : Entry} (h : p e = false)
    (entries : List Entry) : (insertEntry e entries).filter p = entries.filter p := by
  induction entries with
  | nil => simp [insertEntry, h]
  | cons x rest ih =>
    unfold insertEntry
    split
    · simp [h]
    · simp [List.filter_cons, ih]

/-- An entry that goes before the first one is put first. -/
theorem insertEntry_of_forall {e : Entry} {entries : List Entry}
    (h : ∀ x ∈ entries, e.before x = true) : insertEntry e entries = e :: entries := by
  cases entries with
  | nil => rfl
  | cons x rest => exact if_pos (h x List.mem_cons_self)

/-- Of the entries of a sorted list those that are picked out are sorted, and an entry that is one
of them is put into its place among them. -/
theorem filter_insertEntry_of_pos {p : Entry → Bool} {e : Entry} (h : p e = true)
    {entries : List Entry} (sorted : entries.Pairwise fun a b => b.before a = false) :
    (insertEntry e entries).filter p = insertEntry e (entries.filter p) := by
  induction entries with
  | nil => simp [insertEntry, h]
  | cons x rest ih =>
    obtain ⟨hx, hrest⟩ := List.pairwise_cons.1 sorted
    rw [insertEntry]
    by_cases hlt : e.before x = true
    · -- What goes before the first entry goes before all of them.
      have first : ∀ y ∈ (x :: rest).filter p, e.before y = true := by
        intro y hy
        rcases List.mem_cons.1 (List.mem_filter.1 hy).1 with rfl | hy
        · exact hlt
        · have hxy := hx y hy
          rw [← Bool.not_eq_true, Entry.before_iff] at hxy
          rw [Entry.before_iff] at hlt ⊢
          omega
      rw [if_pos hlt, List.filter_cons_of_pos h, ← insertEntry_of_forall first]
    · rw [if_neg hlt, List.filter_cons, ih hrest, List.filter_cons]
      split
      · exact (if_neg hlt).symm
      · rfl

variable {t t' rest : Timeline} {e : Entry} {time : UInt64} {event : Event} {kind : Event → Bool}

/-- The entries whose events are of a kind. -/
def ofKind (kind : Event → Bool) (t : Timeline) : List Entry :=
  t.entries.filter fun e => kind e.event

theorem mem_ofKind : e ∈ t.ofKind kind ↔ e ∈ t.entries ∧ kind e.event = true :=
  List.mem_filter

theorem ofKind_congr (h : t'.entries = t.entries) : t'.ofKind kind = t.ofKind kind := by
  rw [ofKind, h, ofKind]

/-- The entries of a narrower kind are among those of a wider one. -/
theorem ofKind_congr_of_imp {wide : Event → Bool} (h : t'.ofKind wide = t.ofKind wide)
    (narrower : ∀ event, kind event = true → wide event = true) :
    t'.ofKind kind = t.ofKind kind := by
  have hfilter (t : Timeline) : t.ofKind kind = (t.ofKind wide).filter fun e => kind e.event := by
    rw [ofKind, ofKind, List.filter_filter]
    refine List.filter_congr fun e _ => ?_
    cases hk : kind e.event with
    | false => rfl
    | true => simp [narrower _ hk]
  rw [hfilter t', h, hfilter t]

theorem ofKind_schedule_of_ne (h : t.schedule time event = .ok t') (hk : kind event = false) :
    t'.ofKind kind = t.ofKind kind := by
  rw [ofKind, (schedule_eq_ok.1 h).1]
  exact filter_insertEntry_of_neg hk t.entries

/-- A scheduled event has its place among those of its kind. -/
theorem ofKind_schedule (h : t.schedule time event = .ok t') (hk : kind event = true) :
    t'.ofKind kind = insertEntry ⟨time, t.nextSeq, event⟩ (t.ofKind kind) := by
  rw [ofKind, (schedule_eq_ok.1 h).1]
  exact filter_insertEntry_of_pos hk t.sorted

theorem ofKind_pop_of_ne (h : t.pop? = some (e, rest)) (hk : kind e.event = false) :
    rest.ofKind kind = t.ofKind kind := by
  rw [ofKind, ofKind, (pop?_eq_some.1 h).1, List.filter_cons_of_neg (by simp [hk])]

/-- The next entry is the first one of its kind. -/
theorem ofKind_pop (h : t.pop? = some (e, rest)) (hk : kind e.event = true) :
    t.ofKind kind = e :: rest.ofKind kind := by
  rw [ofKind, ofKind, (pop?_eq_some.1 h).1, List.filter_cons_of_pos (by simp [hk])]

/-! ## Times -/

/-- The times of the entries of a kind, added up. -/
def pendingTime (kind : Event → Bool) (t : Timeline) : Nat :=
  ((t.ofKind kind).map fun e => e.time.toNat).foldr (· + ·) 0

theorem pendingTime_congr (h : t'.ofKind kind = t.ofKind kind) :
    t'.pendingTime kind = t.pendingTime kind := by
  rw [pendingTime, h, pendingTime]

/-- An event that is scheduled adds its time to those of its kind. -/
theorem pendingTime_schedule (h : t.schedule time event = .ok t') (hk : kind event = true) :
    t'.pendingTime kind = time.toNat + t.pendingTime kind := by
  rw [pendingTime, ofKind_schedule h hk, sum_insertEntry, pendingTime]

/-- An event of another kind that is scheduled adds nothing. -/
theorem pendingTime_schedule_of_ne (h : t.schedule time event = .ok t')
    (hk : kind event = false) : t'.pendingTime kind = t.pendingTime kind :=
  pendingTime_congr (ofKind_schedule_of_ne h hk)

/-- The event that happens takes its time from those of its kind. -/
theorem pendingTime_pop (h : t.pop? = some (e, rest)) (hk : kind e.event = true) :
    t.pendingTime kind = e.time.toNat + rest.pendingTime kind := by
  rw [pendingTime, ofKind_pop h hk, List.map_cons, List.foldr_cons, pendingTime]

/-- An event of another kind that happens takes nothing. -/
theorem pendingTime_pop_of_ne (h : t.pop? = some (e, rest)) (hk : kind e.event = false) :
    rest.pendingTime kind = t.pendingTime kind :=
  pendingTime_congr (ofKind_pop_of_ne h hk)

end CardComputer.Timeline
