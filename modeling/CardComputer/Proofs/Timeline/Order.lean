import CardComputer.Timeline.Basic

/-!
# The order of a timeline

A timeline on which no two entries have the same place, and on which every number is below the next
one to be given out, stays so when events are scheduled and taken away (`Timeline.Orderly`). The
entries of a timeline that are read back make the same entries again, in the same order
(`Timeline.entries_foldl_insert`), and are numbered on after the greatest number among them
(`Timeline.seqAfter_of_lt`), so that reading back an orderly timeline cannot fail
(`Timeline.Orderly.ofEntries`). Other entries fail exactly if one of them has the last number there
is (`Timeline.ofEntries_eq_error_iff`).
-/

namespace CardComputer.Timeline

/-! ## Orderly timelines -/

/-- No two entries have the same place, and numbers are given out upwards. -/
structure Orderly (t : Timeline) : Prop where
  /-- Every entry goes before those that stand behind it. -/
  strict : t.entries.Pairwise fun a b => a.before b = true
  /-- The next number is greater than those given out. -/
  fresh : ∀ e ∈ t.entries, e.seq < t.nextSeq

/-- An entry that is not in the place of another keeps them strictly ordered. -/
theorem strict_insertEntry {e : Entry} {entries : List Entry}
    (h : entries.Pairwise fun a b => a.before b = true)
    (he : ∀ x ∈ entries, e.before x = false → x.before e = true) :
    (insertEntry e entries).Pairwise fun a b => a.before b = true := by
  induction entries with
  | nil => simp [insertEntry]
  | cons x rest ih =>
    obtain ⟨hx, hrest⟩ := List.pairwise_cons.1 h
    unfold insertEntry
    by_cases hlt : e.before x = true
    · rw [if_pos hlt]
      refine List.pairwise_cons.2 ⟨fun y hy => ?_, h⟩
      -- The new entry goes before `x`, and so before all that follow it.
      rcases List.mem_cons.1 hy with rfl | hy
      · exact hlt
      · have hxy := hx y hy
        rw [Entry.before_iff] at hlt hxy ⊢
        omega
    · rw [if_neg hlt]
      refine List.pairwise_cons.2 ⟨fun y hy => ?_, ih hrest fun y hy => ?_⟩
      · rcases mem_insertEntry.1 hy with rfl | hy
        · exact he x List.mem_cons_self (by simpa using hlt)
        · exact hx y hy
      · exact he y (List.mem_cons_of_mem x hy)

/-- Scheduling keeps a timeline orderly. -/
theorem Orderly.schedule {t t' : Timeline} {time : UInt64} {event : Event} (h : t.Orderly)
    (hs : t.schedule time event = .ok t') : t'.Orderly := by
  obtain ⟨hentries, hseq⟩ := schedule_eq_ok.1 hs
  refine ⟨?_, fun e he => ?_⟩
  · rw [hentries]
    -- The new entry has the greatest number, so it shares its place with no other.
    refine strict_insertEntry h.strict fun x hx hnot => ?_
    have hlt := UInt64.lt_iff_toNat_lt.1 (h.fresh x hx)
    rw [← Bool.not_eq_true, Entry.before_iff] at hnot
    rw [Entry.before_iff]
    simp only at hnot ⊢
    omega
  · rw [UInt64.lt_iff_toNat_lt]
    rcases (mem_schedule hs).1 he with rfl | he
    · simp only
      omega
    · have hlt := UInt64.lt_iff_toNat_lt.1 (h.fresh e he)
      omega

/-- Taking the next entry away keeps a timeline orderly. -/
theorem Orderly.pop {t rest : Timeline} {e : Entry} (h : t.Orderly)
    (hp : t.pop? = some (e, rest)) : rest.Orderly := by
  obtain ⟨hentries, hseq⟩ := pop?_eq_some.1 hp
  have hstrict := h.strict
  have hfresh := h.fresh
  rw [hentries] at hstrict hfresh
  rw [hseq] at hfresh
  exact ⟨(List.pairwise_cons.1 hstrict).2, fun x hx => hfresh x (List.mem_cons_of_mem e hx)⟩

/-- On an orderly timeline the next entry goes before all others. -/
theorem Orderly.before_of_pop {t rest : Timeline} {e x : Entry} (h : t.Orderly)
    (hp : t.pop? = some (e, rest)) (hx : x ∈ rest.entries) : e.before x = true := by
  have hstrict := h.strict
  rw [(pop?_eq_some.1 hp).1] at hstrict
  exact (List.pairwise_cons.1 hstrict).1 x hx

/-! ## Reading entries back -/

/-- An entry that goes before no other is put last. -/
theorem insertEntry_eq_append {e : Entry} {entries : List Entry}
    (h : ∀ x ∈ entries, e.before x = false) : insertEntry e entries = entries ++ [e] := by
  induction entries with
  | nil => rfl
  | cons x rest ih =>
    unfold insertEntry
    rw [h x List.mem_cons_self, if_neg Bool.false_ne_true,
      ih fun y hy => h y (List.mem_cons_of_mem x hy)]
    rfl

/-- Entries that are put into their places in order stand in that order. -/
theorem entries_foldl_insert {entries : List Entry} {t : Timeline}
    (h : (t.entries ++ entries).Pairwise fun a b => b.before a = false) :
    (entries.foldl insert t).entries = t.entries ++ entries := by
  induction entries generalizing t with
  | nil => simp
  | cons e rest ih =>
    have hlast : (t.insert e).entries = t.entries ++ [e] :=
      insertEntry_eq_append fun x hx =>
        (List.pairwise_append.1 h).2.2 x hx e List.mem_cons_self
    rw [List.foldl_cons, ih, hlast, List.append_assoc, List.singleton_append]
    rw [hlast, List.append_assoc, List.singleton_append]
    exact h

/-- Numbering goes on after every number given out. -/
theorem lt_of_seqAfter {entries : List Entry} {next : UInt64} (h : seqAfter entries = .ok next) :
    ∀ e ∈ entries, e.seq < next := by
  induction entries generalizing next with
  | nil => simp
  | cons e rest ih =>
    unfold seqAfter at h
    cases hadd : checkedAdd e.seq 1 with
    | error f =>
      rw [hadd] at h
      cases h
    | ok succ =>
      cases hrest : seqAfter rest with
      | error f =>
        rw [hadd, hrest] at h
        cases h
      | ok after =>
        rw [hadd, hrest] at h
        obtain rfl : max succ after = next := Except.ok.inj h
        have hsucc := checkedAdd_eq_ok_iff.1 hadd
        intro x hx
        rw [UInt64.lt_iff_toNat_lt, toNat_max]
        rcases List.mem_cons.1 hx with rfl | hx
        · simp only [UInt64.toNat_one] at hsucc
          omega
        · have hlt := UInt64.lt_iff_toNat_lt.1 (ih hrest x hx)
          omega

/-- If a number is greater than all that were given out, there is one with which numbering goes on,
and it is no greater. -/
theorem seqAfter_of_lt {entries : List Entry} {bound : UInt64}
    (h : ∀ e ∈ entries, e.seq < bound) : ∃ next, seqAfter entries = .ok next ∧ next ≤ bound := by
  induction entries with
  | nil => exact ⟨0, rfl, UInt64.le_iff_toNat_le.2 (by simp)⟩
  | cons e rest ih =>
    obtain ⟨after, hafter, hle⟩ := ih fun x hx => h x (List.mem_cons_of_mem e hx)
    have hlt := UInt64.lt_iff_toNat_lt.1 (h e List.mem_cons_self)
    have hbound := bound.toNat_lt
    -- The bound leaves room for one more number.
    obtain ⟨succ, hsucc⟩ : ∃ succ, checkedAdd e.seq 1 = .ok succ :=
      exists_checkedAdd (by rw [UInt64.toNat_one, UInt64.size]; omega)
    refine ⟨max succ after, ?_, ?_⟩
    · unfold seqAfter
      rw [hsucc, hafter]
      rfl
    · have hn := checkedAdd_eq_ok_iff.1 hsucc
      rw [UInt64.toNat_one] at hn
      rw [UInt64.le_iff_toNat_le] at hle ⊢
      rw [toNat_max]
      omega

/-- The greatest number, after which there is none. -/
def lastSeq : UInt64 := 0xFFFFFFFFFFFFFFFF

/-- There is a number after every one but the last. -/
theorem exists_checkedAdd_seq {seq : UInt64} (h : seq ≠ lastSeq) :
    ∃ next, checkedAdd seq 1 = .ok next := by
  apply exists_checkedAdd
  have hlt := seq.toNat_lt
  have hne : seq.toNat ≠ lastSeq.toNat := fun heq => h (UInt64.toNat_inj.1 heq)
  have hlast : lastSeq.toNat = 2 ^ 64 - 1 := rfl
  rw [UInt64.toNat_one, UInt64.size]
  omega

/-- Entries cannot be numbered on exactly if one of them has the last number. -/
theorem seqAfter_eq_error_iff {entries : List Entry} {fault : Fault} :
    seqAfter entries = .error fault ↔
      fault = .addOverflow ∧ ∃ e ∈ entries, e.seq = lastSeq := by
  induction entries with
  | nil => simp [seqAfter]
  | cons e rest ih =>
    unfold seqAfter
    by_cases hlast : e.seq = lastSeq
    · -- The first entry decides, whatever the others are.
      have hadd : checkedAdd e.seq 1 = .error .addOverflow := by
        rw [hlast]
        rfl
      rw [hadd]
      show Except.error Fault.addOverflow = Except.error fault ↔ _
      constructor
      · intro h
        cases h
        exact ⟨rfl, e, List.mem_cons_self, hlast⟩
      · rintro ⟨rfl, -⟩
        rfl
    · obtain ⟨next, hadd⟩ := exists_checkedAdd_seq hlast
      have others : (∃ x ∈ e :: rest, x.seq = lastSeq) ↔ ∃ x ∈ rest, x.seq = lastSeq := by
        simp [hlast]
      rw [hadd, others, ← ih]
      cases seqAfter rest with
      | error f => exact Iff.rfl
      | ok after => exact ⟨nofun, nofun⟩

/-- Putting an entry into its place rearranges the entries. -/
theorem perm_insertEntry (e : Entry) (entries : List Entry) :
    (insertEntry e entries).Perm (e :: entries) := by
  induction entries with
  | nil => exact .refl _
  | cons x rest ih =>
    unfold insertEntry
    split
    · exact .refl _
    · exact (ih.cons x).trans (.swap e x rest)

/-- Putting entries into their places, one after the other, rearranges them. -/
theorem perm_foldl_insert (entries : List Entry) (t : Timeline) :
    (entries.foldl insert t).entries.Perm (entries ++ t.entries) := by
  induction entries generalizing t with
  | nil => exact .refl _
  | cons e rest ih =>
    refine (ih (t.insert e)).trans ?_
    -- The first entry has its place among those that were there.
    have first : (t.insert e).entries.Perm (e :: t.entries) := perm_insertEntry e t.entries
    exact (first.append_left rest).trans List.perm_middle

/-- Entries that are read make a timeline of these entries, in the order of their times, which
numbers on after all of them. -/
theorem ofEntries_eq_ok {entries : List Entry} {t : Timeline} (h : ofEntries entries = .ok t) :
    t.entries.Perm entries ∧ seqAfter entries = .ok t.nextSeq := by
  unfold ofEntries at h
  cases hnext : seqAfter entries with
  | error f =>
    rw [hnext] at h
    cases h
  | ok next =>
    rw [hnext] at h
    cases h
    refine ⟨?_, rfl⟩
    simpa [empty] using perm_foldl_insert entries empty

/-- Entries make no timeline exactly if one of them has the last number. -/
theorem ofEntries_eq_error_iff {entries : List Entry} {fault : Fault} :
    ofEntries entries = .error fault ↔
      fault = .addOverflow ∧ ∃ e ∈ entries, e.seq = lastSeq := by
  rw [← seqAfter_eq_error_iff]
  unfold ofEntries
  cases seqAfter entries with
  | error f =>
    show (Except.error f : Except Fault Timeline) = .error fault ↔ _
    rw [Except.error.injEq, Except.error.injEq]
  | ok next => exact ⟨nofun, nofun⟩

/-- The entries of an orderly timeline are read back as a timeline with the same entries, which
numbers its entries on from no greater a number. -/
theorem Orderly.ofEntries {t : Timeline} (h : t.Orderly) :
    ∃ t' : Timeline, Timeline.ofEntries t.entries = .ok t' ∧ t'.entries = t.entries ∧
      t'.nextSeq ≤ t.nextSeq ∧ t'.Orderly := by
  -- Numbers are left, because the timeline itself had a next one.
  obtain ⟨next, hnext, hle⟩ := seqAfter_of_lt h.fresh
  have hentries : (t.entries.foldl Timeline.insert .empty).entries = t.entries :=
    entries_foldl_insert t.sorted
  refine ⟨{ t.entries.foldl Timeline.insert .empty with nextSeq := next }, ?_, hentries, hle, ?_⟩
  · unfold Timeline.ofEntries
    rw [hnext]
    rfl
  · refine ⟨?_, ?_⟩
    · rw [hentries]
      exact h.strict
    · rw [hentries]
      exact lt_of_seqAfter hnext

end CardComputer.Timeline
