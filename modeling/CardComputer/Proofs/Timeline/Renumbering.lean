import CardComputer.Proofs.Timeline.Order

/-!
# Renumbered timelines

Two timelines with the same events can number them differently, for example when the second one was
read back from storage and numbers on from where its entries end. `Timeline.Renumbering` says that
the second one's numbers are in the same order. Both then have the same next event, and stay so
related when the same is scheduled on both.
-/

namespace CardComputer

/-- An entry with another number. -/
def Entry.renumber (f : UInt64 → UInt64) (e : Entry) : Entry := { e with seq := f e.seq }

namespace Timeline

/-- The numbers of the second timeline are those of the first one, changed by `f`, which keeps their
order. Both number upwards, and the second one goes on from no greater a number. -/
structure Renumbering (f : UInt64 → UInt64) (t t' : Timeline) : Prop where
  /-- The entries are the same but for their numbers. -/
  entries : t'.entries = t.entries.map (Entry.renumber f)
  /-- The numbers are in the same order. -/
  mono : ∀ x ∈ t.entries, ∀ y ∈ t.entries, x.seq < y.seq → f x.seq < f y.seq
  /-- The first timeline numbers upwards. -/
  fresh : ∀ x ∈ t.entries, x.seq < t.nextSeq
  /-- The second timeline numbers upwards. -/
  fresh' : ∀ x ∈ t.entries, f x.seq < t'.nextSeq
  /-- The second timeline has no fewer numbers left. -/
  next : t'.nextSeq ≤ t.nextSeq

/-- The second timeline is the first one with its numbers changed, in the same order. -/
def Renumbered (t t' : Timeline) : Prop := ∃ f, Renumbering f t t'

/-- Orderly timelines with the same entries are numbered alike. -/
theorem Orderly.renumbered {t t' : Timeline} (h : t.Orderly) (h' : t'.Orderly)
    (entries : t'.entries = t.entries) (next : t'.nextSeq ≤ t.nextSeq) : Renumbered t t' := by
  refine ⟨id, ?_, fun x _ y _ hxy => hxy, h.fresh, fun x hx => ?_, next⟩
  · rw [entries]
    exact (List.map_id _).symm
  · rw [← entries] at hx
    exact h'.fresh x hx

/-- Entries that compare alike are put into the same place. -/
theorem map_insertEntry {g : Entry → Entry} {e : Entry} {entries : List Entry}
    (h : ∀ x ∈ entries, (g e).before (g x) = e.before x) :
    (insertEntry e entries).map g = insertEntry (g e) (entries.map g) := by
  induction entries with
  | nil => rfl
  | cons x rest ih =>
    -- Both searches stop at the same place.
    have hrest := ih fun y hy => h y (List.mem_cons_of_mem x hy)
    simp only [insertEntry, List.map_cons, h x List.mem_cons_self]
    split
    · rfl
    · rw [List.map_cons, hrest]

/-- A new entry, with a number greater than all others, only goes before those of later times. -/
theorem before_of_fresh {e x : Entry} (h : x.seq < e.seq) :
    e.before x = decide (e.time < x.time) := by
  rw [UInt64.lt_iff_toNat_lt] at h
  rw [Bool.eq_iff_iff, Entry.before_iff, decide_eq_true_iff, UInt64.lt_iff_toNat_lt]
  omega

/-- The only fault of scheduling is that the numbers are used up. -/
theorem schedule_eq_error {t : Timeline} {time : UInt64} {event : Event} {fault : Fault}
    (h : t.schedule time event = .error fault) : fault = .addOverflow := by
  unfold schedule at h
  cases hn : checkedAdd t.nextSeq 1 with
  | error f =>
    rw [hn] at h
    cases h
    exact (checkedAdd_eq_error_iff.1 hn).1
  | ok nextSeq =>
    rw [hn] at h
    cases h

/-- The same event can be scheduled on a renumbered timeline. -/
theorem Renumbered.schedule {t t' u : Timeline} {time : UInt64} {event : Event}
    (h : Renumbered t t') (hs : t.schedule time event = .ok u) :
    ∃ u', t'.schedule time event = .ok u' ∧ Renumbered u u' := by
  obtain ⟨f, hentries, hmono, hfresh, hfresh', hnext⟩ := h
  obtain ⟨huentries, huseq⟩ := schedule_eq_ok.1 hs
  have hlt := u.nextSeq.toNat_lt
  have hle := UInt64.le_iff_toNat_le.1 hnext
  -- The second timeline has no fewer numbers left, so it has one, too.
  obtain ⟨u', hs'⟩ : ∃ u', t'.schedule time event = .ok u' := by
    obtain ⟨succ, hsucc⟩ : ∃ succ, checkedAdd t'.nextSeq 1 = .ok succ :=
      exists_checkedAdd (by rw [UInt64.toNat_one, UInt64.size]; omega)
    refine ⟨{ t'.insert ⟨time, t'.nextSeq, event⟩ with nextSeq := succ }, ?_⟩
    unfold Timeline.schedule
    rw [hsucc]
    rfl
  obtain ⟨huentries', huseq'⟩ := schedule_eq_ok.1 hs'
  refine ⟨u', hs', ?_⟩
  -- The new number is changed into the new number of the second timeline.
  let g : UInt64 → UInt64 := fun n => if n = t.nextSeq then t'.nextSeq else f n
  have hnew : g t.nextSeq = t'.nextSeq := if_pos rfl
  have hold {x : Entry} (hx : x ∈ t.entries) : g x.seq = f x.seq := by
    refine if_neg fun heq => ?_
    have hx := UInt64.lt_iff_toNat_lt.1 (hfresh x hx)
    rw [heq] at hx
    exact Nat.lt_irrefl _ hx
  have hcompare : ∀ x ∈ t.entries, (Entry.renumber g ⟨time, t.nextSeq, event⟩).before
      (x.renumber g) = Entry.before ⟨time, t.nextSeq, event⟩ x := by
    intro x hx
    have hx' : g x.seq < g t.nextSeq := by
      rw [hold hx, hnew]
      exact hfresh' x hx
    exact (before_of_fresh hx').trans
      (before_of_fresh (e := ⟨time, t.nextSeq, event⟩) (hfresh x hx)).symm
  refine ⟨g, ?_, ?_, ?_, ?_, ?_⟩
  · have hmap : t.entries.map (Entry.renumber f) = t.entries.map (Entry.renumber g) :=
      List.map_congr_left fun x hx => by simp only [Entry.renumber, hold hx]
    rw [huentries, map_insertEntry hcompare, huentries', hentries, hmap]
    simp only [Entry.renumber, hnew]
  · intro x hx y hy hxy
    rcases (mem_schedule hs).1 hx with rfl | hx <;> rcases (mem_schedule hs).1 hy with rfl | hy
    · exact absurd hxy (UInt64.lt_irrefl _)
    · exact absurd (UInt64.lt_trans hxy (hfresh y hy)) (UInt64.lt_irrefl _)
    · show g x.seq < g t.nextSeq
      rw [hold hx, hnew]
      exact hfresh' x hx
    · rw [hold hx, hold hy]
      exact hmono x hx y hy hxy
  · intro x hx
    rw [UInt64.lt_iff_toNat_lt, huseq]
    rcases (mem_schedule hs).1 hx with rfl | hx
    · exact Nat.lt_succ_self _
    · exact Nat.lt_succ_of_lt (UInt64.lt_iff_toNat_lt.1 (hfresh x hx))
  · intro x hx
    rw [UInt64.lt_iff_toNat_lt, huseq']
    rcases (mem_schedule hs).1 hx with rfl | hx
    · show (g t.nextSeq).toNat < _
      rw [hnew]
      exact Nat.lt_succ_self _
    · rw [hold hx]
      exact Nat.lt_succ_of_lt (UInt64.lt_iff_toNat_lt.1 (hfresh' x hx))
  · rw [UInt64.le_iff_toNat_le, huseq, huseq']
    omega

/-- Without a next event a renumbered timeline has none either. -/
theorem Renumbered.pop?_eq_none {t t' : Timeline} (h : Renumbered t t') (hp : t.pop? = none) :
    t'.pop? = none := by
  obtain ⟨f, hentries, -⟩ := h
  rw [pop?_eq_none_iff] at hp ⊢
  rw [hentries, hp]
  rfl

/-- A renumbered timeline has the same next event. -/
theorem Renumbered.pop {t t' rest : Timeline} {e : Entry} (h : Renumbered t t')
    (hp : t.pop? = some (e, rest)) :
    ∃ e' rest', t'.pop? = some (e', rest') ∧ e'.time = e.time ∧ e'.event = e.event ∧
      Renumbered rest rest' := by
  obtain ⟨f, hentries, hmono, hfresh, hfresh', hnext⟩ := h
  obtain ⟨hcons, hseq⟩ := pop?_eq_some.1 hp
  -- The first entries correspond, and so do the others.
  rw [hcons, List.map_cons] at hentries
  cases hp' : t'.pop? with
  | none =>
    rw [pop?_eq_none_iff.1 hp'] at hentries
    cases hentries
  | some popped =>
    obtain ⟨e', rest'⟩ := popped
    obtain ⟨hcons', hseq'⟩ := pop?_eq_some.1 hp'
    obtain ⟨rfl, hrest⟩ := List.cons.inj (hcons'.symm.trans hentries)
    have hmem {x : Entry} (hx : x ∈ rest.entries) : x ∈ t.entries := by
      rw [hcons]
      exact List.mem_cons_of_mem e hx
    refine ⟨_, rest', rfl, rfl, rfl, f, hrest, ?_, ?_, ?_, ?_⟩
    · exact fun x hx y hy => hmono x (hmem hx) y (hmem hy)
    · rw [← hseq]
      exact fun x hx => hfresh x (hmem hx)
    · rw [← hseq']
      exact fun x hx => hfresh' x (hmem hx)
    · rw [← hseq, ← hseq']
      exact hnext

/-- A renumbered timeline has its next event at the same time. -/
theorem Renumbered.nextTime?_eq {t t' : Timeline} (h : Renumbered t t') :
    t'.nextTime? = t.nextTime? := by
  cases hp : t.pop? with
  | none => rw [Timeline.pop?_eq_none hp, Timeline.pop?_eq_none (h.pop?_eq_none hp)]
  | some popped =>
    obtain ⟨e, rest⟩ := popped
    obtain ⟨e', rest', hp', htime, -⟩ := h.pop hp
    rw [pop?_time hp, pop?_time hp', htime]

end Timeline

end CardComputer
