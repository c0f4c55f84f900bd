import CardComputer.Proofs.Card.Scanner
import CardComputer.Proofs.Machine.Periodic

/-!
# Reading a card

The half-bits of a card pass the sensor with the shifts, which happen at the multiples of a period
whoever swipes a card when. A swipe is put on the timeline at the present, behind the shifts that
are due by then, and is taken off it before the clock goes on. So the number of half-bits that have
passed is that of the multiples between the swipe and the present (`Machine.Scanning`), and this is
what the coprocessor reads (`Machine.swipe_is_read_back`).
-/

namespace CardComputer

open Op

/-! ## Events of the card reader -/

/-- Whether an event is a swipe. -/
def Event.isSwipe : Event → Bool
  | cardSwipe _ => true
  | _ => false

/-- Whether an event changes what the sensor sees. -/
def Event.ofReader (event : Event) : Bool :=
  event.isSwipe || event = .barcodeShift

/-- The card of a pending swipe, and when it is swiped. -/
def Entry.swipe? (e : Entry) : Option (CardCode × UInt64) :=
  match e.event with
  | .cardSwipe code => some (code, e.time)
  | _ => none

namespace Timeline

variable {t t' rest : Timeline} {e : Entry} {time : UInt64} {code : CardCode}

/-- The pending swipes, the next one first. -/
def swipes (t : Timeline) : List (CardCode × UInt64) :=
  (t.ofKind Event.isSwipe).filterMap Entry.swipe?

/-- A swipe that is not earlier than the pending ones comes after them. -/
theorem swipes_schedule (orderly : t.Orderly) (h : t.schedule time (.cardSwipe code) = .ok t')
    (present : ∀ x ∈ t.entries, x.event.isSwipe = true → x.time ≤ time) :
    t'.swipes = t.swipes ++ [(code, time)] := by
  have last : ∀ x ∈ t.ofKind Event.isSwipe,
      (⟨time, t.nextSeq, .cardSwipe code⟩ : Entry).before x = false := by
    intro x hx
    obtain ⟨hx, hkind⟩ := mem_ofKind.1 hx
    have hle := UInt64.le_iff_toNat_le.1 (present x hx hkind)
    have hlt := UInt64.lt_iff_toNat_lt.1 (orderly.fresh x hx)
    rw [← Bool.not_eq_true, Entry.before_iff]
    simp only
    omega
  rw [swipes, ofKind_schedule h rfl, insertEntry_eq_append last, List.filterMap_append]
  rfl

/-- The next swipe is the first one. -/
theorem swipes_pop (h : t.pop? = some (e, rest)) (hk : e.event = .cardSwipe code) :
    t.swipes = (code, e.time) :: rest.swipes := by
  have hkind : e.event.isSwipe = true := by rw [hk, Event.isSwipe]
  have hswipe : e.swipe? = some (code, e.time) := by rw [Entry.swipe?, hk]
  rw [swipes, ofKind_pop h hkind, List.filterMap_cons_some hswipe, swipes]

end Timeline

/-! ## The sensor -/

/-- The scanner after some shifts since power-on, when the latest swipe, if there was one, was made
in the period of an earlier shift or the same. -/
def Scanner.Shows (period shifts : ℕ) (swipes : List (CardCode × UInt64)) (s : Scanner) : Prop :=
  match swipes with
  | [] => s = .idle
  | (code, start) :: _ =>
    start.toNat / period ≤ shifts ∧ s = tick^[shifts - start.toNat / period] (.loaded code)

/-- A shift. -/
theorem Scanner.Shows.tick {period shifts : ℕ} {swipes : List (CardCode × UInt64)} {s : Scanner}
    (h : s.Shows period shifts swipes) : s.tick.Shows period (shifts + 1) swipes := by
  match swipes, h with
  | [], h => exact (congrArg Scanner.tick h).trans tick_idle
  | (code, start) :: _, ⟨hle, h⟩ =>
    refine ⟨Nat.le_succ_of_le hle, ?_⟩
    rw [Nat.succ_sub hle, Function.iterate_succ_apply', h]

/-- What the sensor shows at a time: the half-bit of the card that was swiped latest, counted from
the period of the swipe. It is bright before the first swipe and after the last half-bit. -/
def sensed (period : ℕ) (swipes : List (CardCode × UInt64)) (time : UInt64) : Bool :=
  match swipes with
  | [] => true
  | (code, start) :: _ =>
    (Swipe.levels code).getD (time.toNat / period - start.toNat / period) true

/-- The sensor sees what it is to show. -/
theorem Scanner.Shows.sense_eq {period : ℕ} {swipes : List (CardCode × UInt64)} {time : UInt64}
    {s : Scanner} (h : s.Shows period (time.toNat / period) swipes) :
    s.sense = sensed period swipes time := by
  match swipes, h with
  | [], h =>
    rw [show s = .idle from h]
    rfl
  | (code, start) :: _, ⟨_, h⟩ =>
    rw [h, sense_iterate_tick, sensed]

/-- A level is read back from its byte. -/
theorem Board.levelByte_ne_zero (level : Bool) : (levelByte level != 0) = level := by
  cases level with
  | false => rfl
  | true => rfl

namespace Machine

/-! ## Scanning -/

/-- The scanner of a machine with some swipes: so many shifts have happened, some of the swipes are
done, and the others are pending. -/
structure Scanning (swipes : List (CardCode × UInt64)) (m : Machine) (shifts : ℕ)
    (done : List (CardCode × UInt64)) : Prop where
  shift : m.timeline.Beats .barcodeShift m.config.barcodeShiftCycles.toNat shifts (m.now.toNat + 1)
  /-- A pending swipe was made at the present. -/
  present : ∀ x ∈ m.timeline.entries, x.event.isSwipe = true → x.time ≤ m.now
  /-- A shift that is due at the present comes first. -/
  behind : ∀ x ∈ m.timeline.entries, x.event.isSwipe = true → ∀ e ∈ m.timeline.entries,
    e.event = .barcodeShift → x.time = e.time → e.seq < x.seq
  told : swipes = m.timeline.swipes.reverse ++ done
  scanner : m.board.scanner.Shows m.config.barcodeShiftCycles.toNat shifts done

section Scanning

variable {swipes done : List (CardCode × UInt64)} {m m' : Machine} {shifts : ℕ}

/-- What changes neither the scanner nor the events of the card reader goes on with the scan. -/
theorem Scanning.congr (h : Scanning swipes m shifts done) (config : m'.config = m.config)
    (now : m.now ≤ m'.now) (scanner : m'.board.scanner = m.board.scanner)
    (reader : m'.timeline.ofKind Event.ofReader = m.timeline.ofKind Event.ofReader) :
    Scanning swipes m' shifts done := by
  have shiftKind : m'.timeline.ofKind (· = .barcodeShift) = m.timeline.ofKind (· = .barcodeShift) :=
    Timeline.ofKind_congr_of_imp reader fun event h => by simp_all [Event.ofReader]
  have swipeKind : m'.timeline.ofKind Event.isSwipe = m.timeline.ofKind Event.isSwipe :=
    Timeline.ofKind_congr_of_imp reader fun event h => by simp [Event.ofReader, h]
  have old {kind : Event → Bool} (same : m'.timeline.ofKind kind = m.timeline.ofKind kind)
      {x : Entry} (hx : x ∈ m'.timeline.entries) (hk : kind x.event = true) :
      x ∈ m.timeline.entries := by
    have hmem := Timeline.mem_ofKind.2 ⟨hx, hk⟩
    rw [same] at hmem
    exact (Timeline.mem_ofKind.1 hmem).1
  obtain ⟨⟨e, he, htime⟩, hlast⟩ := h.shift
  refine ⟨?_, fun x hx hk => ?_, fun x hx hk e he hshift => ?_, ?_, ?_⟩
  · rw [config]
    exact Timeline.Beats.mono ⟨⟨e, shiftKind.trans he, htime⟩, hlast⟩
      (Nat.succ_le_succ (UInt64.le_iff_toNat_le.1 now))
  · exact UInt64.le_trans (h.present x (old swipeKind hx hk) hk) now
  · exact h.behind x (old swipeKind hx hk) hk e (old shiftKind he (decide_eq_true hshift)) hshift
  · rw [Timeline.swipes, swipeKind]
    exact h.told
  · rw [config, scanner]
    exact h.scanner

/-- A shift moves the scanner on. -/
theorem Scanning.effect_shift {e : Entry} {rest timeline : Timeline} {due : UInt64}
    (h : Scanning swipes m shifts done) (caughtUp : m.CaughtUp m.now)
    (next : m.timeline.pop? = some (e, rest)) (kind : e.event = .barcodeShift)
    (period : due.toNat = e.time.toNat + m.config.barcodeShiftCycles.toNat)
    (scheduled : rest.schedule due .barcodeShift = .ok timeline) :
    Scanning swipes { m with
      now := e.time, timeline
      board := { m.board with scanner := m.board.scanner.tick } } (shifts + 1) done := by
  have hnow := caughtUp.events e (Timeline.mem_of_pop next)
  have hbeats := (h.shift.mono (Nat.succ_le_succ (UInt64.le_iff_toNat_le.1 hnow))).beat next kind
    (Nat.lt_succ_self _) period scheduled
  -- The entry for the next shift is no swipe, and all others were there before.
  have pending {x : Entry} (hx : x ∈ timeline.entries) (hk : x.event.isSwipe = true) :
      x ∈ m.timeline.entries := by
    rcases (Timeline.mem_schedule scheduled).1 hx with rfl | hx
    · cases hk
    · exact Timeline.mem_of_mem_rest next hx
  refine ⟨hbeats, fun x hx hk => ?_, fun x hx hk f hf hshift heq => ?_, ?_, h.scanner.tick⟩
  · exact UInt64.le_trans (h.present x (pending hx hk) hk) hnow
  · -- The next shift is later than what happens at the present.
    have hle := UInt64.le_iff_toNat_le.1 (UInt64.le_trans (h.present x (pending hx hk) hk) hnow)
    have hpos := m.periods_pos.1
    have hf := hbeats.time_eq hf hshift
    have he := h.shift.time_eq (Timeline.mem_of_pop next) kind
    rw [Nat.add_mul (shifts + 1) 1, Nat.one_mul, ← he, ← heq] at hf
    omega
  · have same : timeline.swipes = m.timeline.swipes := by
      rw [Timeline.swipes, Timeline.ofKind_schedule_of_ne scheduled rfl,
        Timeline.ofKind_pop_of_ne next (kind ▸ rfl), Timeline.swipes]
    rw [same]
    exact h.told

/-- A swipe loads the scanner in the period in which it was made. -/
theorem Scanning.effect_swipe {e : Entry} {rest : Timeline} {code : CardCode}
    (h : Scanning swipes m shifts done) (orderly : m.timeline.Orderly)
    (caughtUp : m.CaughtUp m.now) (next : m.timeline.pop? = some (e, rest))
    (kind : e.event = .cardSwipe code) :
    Scanning swipes { m with
      now := e.time, timeline := rest
      board := { m.board with scanner := .loaded code } } shifts ((code, e.time) :: done) := by
  have hnow := caughtUp.events e (Timeline.mem_of_pop next)
  have hle := UInt64.le_iff_toNat_le.1 hnow
  have hmem {x : Entry} (hx : x ∈ rest.entries) : x ∈ m.timeline.entries :=
    Timeline.mem_of_mem_rest next hx
  have hswipe : e.event.isSwipe = true := by rw [kind, Event.isSwipe]
  -- The swipe was made before the next shift.
  have hbefore : e.time.toNat < (shifts + 1) * m.config.barcodeShiftCycles.toNat := by
    obtain ⟨f, hf, hshift, htime⟩ := h.shift.exists_entry
    have hrest : f ∈ rest.entries := by
      rw [(Timeline.pop?_eq_some.1 next).1] at hf
      refine (List.mem_cons.1 hf).resolve_left ?_
      rintro rfl
      rw [kind] at hshift
      cases hshift
    rcases Entry.before_iff.1 (orderly.before_of_pop next hrest) with hlt | ⟨heq, hlt⟩
    · exact htime ▸ hlt
    · -- A shift that is due when the swipe was made comes first.
      have hgt := h.behind e (Timeline.mem_of_pop next) hswipe f hf hshift
        (UInt64.toNat_inj.1 heq)
      rw [UInt64.lt_iff_toNat_lt] at hgt
      omega
  -- The last shift was no later than the present, and the swipe is no earlier.
  have hafter : shifts * m.config.barcodeShiftCycles.toNat ≤ e.time.toNat := by
    rcases h.shift.last with rfl | hlt
    · omega
    · omega
  refine ⟨?_, fun x hx hk => ?_, fun x hx hk f hf => ?_, ?_, ?_⟩
  · exact (h.shift.pop_of_ne next (kind ▸ nofun)).mono (Nat.succ_le_succ hle)
  · exact UInt64.le_trans (h.present x (hmem hx) hk) hnow
  · exact h.behind x (hmem hx) hk f (hmem hf)
  · rw [h.told, Timeline.swipes_pop next kind, List.reverse_cons, List.append_assoc,
      List.singleton_append]
  · have hdiv : e.time.toNat / m.config.barcodeShiftCycles.toNat = shifts :=
      Nat.div_eq_of_lt_le hafter hbefore
    exact ⟨Nat.le_of_eq hdiv, by rw [hdiv, Nat.sub_self]; rfl⟩

/-- A turn goes on with the scan. -/
theorem Scanning.effect {target : UInt64} {turn : Turn} (h : Scanning swipes m shifts done)
    (regular : m.Regular) (caughtUp : m.CaughtUp m.now) (ht : m.turn? target = some turn)
    (he : Effect m turn m') : ∃ shifts done, Scanning swipes m' shifts done := by
  have now : m.now ≤ m'.now := by
    rw [he.timing.now]
    exact caughtUp.le_turnTime ht
  cases he with
  | shift next kind period scheduled =>
    exact ⟨shifts + 1, done, h.effect_shift caughtUp next kind period scheduled⟩
  | @swipe e rest code next kind =>
    exact ⟨shifts, (code, e.time) :: done, h.effect_swipe regular.orderly caughtUp next kind⟩
  -- No other turn reaches the scanner or the events of the card reader.
  | tick next kind counted period scheduled =>
    refine ⟨shifts, done, h.congr rfl now rfl ?_⟩
    exact (Timeline.ofKind_schedule_of_ne scheduled rfl).trans
      (Timeline.ofKind_pop_of_ne next (kind ▸ rfl))
  | key next kind =>
    exact ⟨shifts, done, h.congr rfl now rfl (Timeline.ofKind_pop_of_ne next (kind ▸ rfl))⟩
  | release next kind stalled counted =>
    exact ⟨shifts, done, h.congr rfl now rfl (Timeline.ofKind_pop_of_ne next (kind ▸ rfl))⟩
  | spurious next kind other =>
    exact ⟨shifts, done, h.congr rfl now rfl (Timeline.ofKind_pop_of_ne next (kind ▸ rfl))⟩
  | mcu step later =>
    have hscanner := congrArg Board.Remote.scanner step.remote_eq
    exact ⟨shifts, done, h.congr rfl now hscanner rfl⟩
  | main step counted later times =>
    obtain ⟨mailbox, stall, playback, rfl⟩ := step.main_frame
    exact ⟨shifts, done, h.congr rfl now rfl (times.ofKind_eq fun _ => rfl)⟩

/-- A swipe is put behind what is pending at the present. -/
theorem Scanning.post_swipe {code : CardCode} {timeline : Timeline}
    (h : Scanning swipes m shifts done) (orderly : m.timeline.Orderly)
    (scheduled : m.timeline.schedule m.now (.cardSwipe code) = .ok timeline) :
    Scanning ((code, m.now) :: swipes) { m with timeline } shifts done := by
  have hmem {x : Entry} (hx : x ∈ timeline.entries) :=
    (Timeline.mem_schedule scheduled).1 hx
  refine ⟨h.shift.schedule_of_ne scheduled nofun, fun x hx hk => ?_,
    fun x hx hk e he hshift heq => ?_, ?_, h.scanner⟩
  · rcases hmem hx with rfl | hx
    · exact UInt64.le_refl _
    · exact h.present x hx hk
  · rcases hmem he with rfl | he
    · cases hshift
    · rcases hmem hx with rfl | hx
      · exact orderly.fresh e he
      · exact h.behind x hx hk e he hshift heq
  · rw [Timeline.swipes_schedule orderly scheduled h.present, List.reverse_append, h.told]
    rfl

/-- A request goes on with the scan. -/
theorem Scanning.fulfilled {r : Request} (h : Scanning swipes m shifts done) (regular : m.Regular)
    (hr : Fulfilled m r m') : Scanning (r.swiped m.now swipes) m' shifts done := by
  cases hr with
  | install timer => exact h.congr rfl (UInt64.le_refl _) rfl rfl
  | pressReset => exact h.congr rfl (UInt64.le_refl _) rfl rfl
  | posted posts scheduled =>
    have other {event : Event} {timeline : Timeline} (hk : event.ofReader = false)
        (hs : m.timeline.schedule m.now event = .ok timeline) :
        Scanning swipes { m with timeline } shifts done :=
      h.congr rfl (UInt64.le_refl _) rfl (Timeline.ofKind_schedule_of_ne hs hk)
    cases r with
    | swipe code =>
      cases posts
      exact h.post_swipe regular.orderly scheduled
    | setKey key pressed =>
      cases posts
      exact other rfl scheduled
    | speechDone =>
      cases posts
      exact other rfl scheduled
    | install timer => cases posts
    | pressReset => cases posts

/-- A run goes on with the scan. -/
theorem Scanning.runUntil {target : UInt64} {past : List Machine} {s s' : Observed Machine}
    (h : Scanning swipes s.device shifts done) (before : History past s.device)
    (forward : s.device.now ≤ target) (hs : runUntil target s = .ok () s') :
    ∃ shifts done, Scanning swipes s'.device shifts done := by
  obtain ⟨t, ht, rfl⟩ := runUntil_eq_ok.1 hs
  have kept := turns_invariant (P := fun m => (∃ shifts done, Scanning swipes m shifts done) ∧
      m.Regular ∧ m.CaughtUp m.now ∧ m.now ≤ target) (fun m turn m' hm hturn he => by
    obtain ⟨⟨shifts, done, hm⟩, regular, caughtUp, -⟩ := hm
    refine ⟨hm.effect regular caughtUp hturn he, regular.effect he, ?_, ?_⟩
    · rw [he.timing.now]
      exact (caughtUp_turnTime hturn).effect hturn he
    · rw [he.timing.now]
      exact UInt64.le_of_lt (due_of_turn? hturn).target)
    ⟨⟨shifts, done, h⟩, before.regular, before.caughtUp, forward⟩ ht
  obtain ⟨⟨⟨shifts, done, h⟩, -, -, hnow⟩, -⟩ := kept
  exact ⟨shifts, done, h.congr rfl hnow rfl rfl⟩

/-- At power-on nothing is scanned. -/
theorem scanning_powerOn (timeline : m.timeline = powerOnTimeline m.config)
    (idle : m.board.scanner = .idle) : Scanning [] m 0 [] := by
  obtain ⟨hshift, -⟩ := ofKind_powerOnTimeline m.config
  have other {x : Entry} (hx : x ∈ m.timeline.entries) : x.event.isSwipe = false := by
    rw [timeline] at hx
    rcases mem_powerOnTimeline.1 hx with rfl | rfl
    · rfl
    · rfl
  have none : m.timeline.swipes = [] := by
    rw [Timeline.swipes, Timeline.ofKind, List.filter_eq_nil_iff.2 fun x hx => by simp [other hx],
      List.filterMap_nil]
  refine ⟨?_, fun x hx hk => ?_, fun x hx hk => ?_, ?_, idle⟩
  · exact Timeline.beats_of_entry (timeline ▸ hshift) rfl _
  · rw [other hx] at hk
    cases hk
  · rw [other hx] at hk
    cases hk
  · rw [none]
    rfl

/-- The scanner of a machine that has gone onward. -/
theorem Onward.scanning (h : Onward swipes m) : ∃ shifts done, Scanning swipes m shifts done := by
  induction h with
  | build config valid main mcu timer => exact ⟨0, [], scanning_powerOn rfl rfl⟩
  | request before h ih =>
    obtain ⟨shifts, done, ih⟩ := ih
    obtain ⟨past, hpast⟩ := before.history
    exact ⟨shifts, done, ih.fulfilled hpast.regular (fulfilled_of_perform h)⟩
  | runUntil before forward h ih =>
    obtain ⟨shifts, done, ih⟩ := ih
    obtain ⟨past, hpast⟩ := before.history
    exact ih.runUntil hpast forward h
  | stepFrame before h ih =>
    obtain ⟨shifts, done, ih⟩ := ih
    obtain ⟨past, hpast⟩ := before.history
    obtain ⟨target, forward, hrun⟩ := forward_of_stepFrame h
    exact ih.runUntil hpast forward hrun
  | reset before ih => exact ⟨0, [], scanning_powerOn rfl rfl⟩
  | load before origin config h ih ih' =>
    obtain ⟨shifts, done, ih'⟩ := ih'
    obtain ⟨past, hpast⟩ := origin.history
    obtain ⟨-, timeline, hentries, -, -, rfl⟩ := hpast.regular.of_load h
    exact ⟨shifts, done,
      ih'.congr config.symm (UInt64.le_refl _) rfl (Timeline.ofKind_congr hentries)⟩

/-- The scanner of a machine in the middle of a run. -/
theorem Running.scanning {target : UInt64} (h : Running target swipes m) :
    ∃ shifts done, Scanning swipes m shifts done := by
  induction h with
  | start before forward => exact before.scanning
  | @turn m m' turn log log' before ht h ih =>
    obtain ⟨shifts, done, ih⟩ := ih
    obtain ⟨past, hpast⟩ := before.history
    have effect : Effect m turn m' := effect_of_take (s := ⟨m, log⟩) ht h
    exact ih.effect hpast.regular hpast.caughtUp ht effect

/-! ## Reading the sensor -/

/-- The coprocessor has the turn with an instruction that reads the card sensor, and carries it
out. -/
structure SensorStep (period : ℕ) (swipes : List (CardCode × UInt64)) (m m' : Machine) : Prop where
  period : m.config.barcodeShiftCycles.toNat = period
  taken : ∃ target log log', Running target swipes m ∧ m.turn? target = some .mcu ∧
    take .mcu ⟨m, log⟩ = .ok () ⟨m', log'⟩
  sensor : ∃ cycles, m.mcu.fetch.1 = some ⟨.input Port.t0.address, cycles⟩

/-- When the coprocessor has the turn, all swipes are done and the scanner has come to the period of
the step. -/
theorem Scanning.sense_eq {target : UInt64} (h : Scanning swipes m shifts done)
    (caughtUp : m.CaughtUp m.now) (ht : m.turn? target = some .mcu) :
    m.board.scanner.sense =
      sensed m.config.barcodeShiftCycles.toNat swipes m.mcuTime := by
  -- All that is pending is later than the step.
  have later : ∀ e ∈ m.timeline.entries, m.mcuTime < e.time := fun e he =>
    UInt64.lt_of_lt_of_le ((due_of_turn? ht).event_later nofun)
      (le_eventDue_iff.1 (UInt64.le_refl _) e he)
  have hnow := UInt64.le_iff_toNat_le.1 caughtUp.mcu
  have none : m.timeline.swipes = [] := by
    have hnil : m.timeline.ofKind Event.isSwipe = [] := by
      refine List.filter_eq_nil_iff.2 fun x hx hk => ?_
      have hle := UInt64.le_trans (h.present x hx hk) caughtUp.mcu
      exact UInt64.not_lt.2 hle (later x hx)
    rw [Timeline.swipes, hnil, List.filterMap_nil]
  obtain ⟨e, he, -, htime⟩ := h.shift.exists_entry
  have hlt := UInt64.lt_iff_toNat_lt.1 (later e he)
  have hdiv : m.mcuTime.toNat / m.config.barcodeShiftCycles.toNat = shifts := by
    refine Nat.div_eq_of_lt_le ?_ (htime ▸ hlt)
    rcases h.shift.last with rfl | hlast
    · omega
    · omega
  have scanner := h.scanner
  have told := h.told
  rw [none, List.reverse_nil, List.nil_append] at told
  rw [← told, ← hdiv] at scanner
  exact scanner.sense_eq

/-- A step reads what the sensor shows. -/
theorem SensorStep.reads_eq {period : ℕ} (h : SensorStep period swipes m m') :
    m'.mcu.reads = Board.levelByte (sensed period swipes m.mcuTime) :: m.mcu.reads := by
  obtain ⟨rfl, ⟨target, log, log', running, ht, htake⟩, cycles, fetch⟩ := h
  obtain ⟨past, hpast⟩ := running.history
  obtain ⟨shifts, done, hscan⟩ := running.scanning
  rw [← hscan.sense_eq hpast.caughtUp ht]
  have effect : Effect m .mcu m' := effect_of_take (s := ⟨m, log⟩) ht htake
  cases effect with
  | mcu step later =>
    have hstep := step.eq_afterStep
    have hreads := Processor.reads_afterStep (b := m.board.setTime m.mcuTime) fetch rfl
    rw [hstep] at hreads
    exact hreads

/-- A card is read bit by bit, whoever swipes it when. What a step reads from the sensor is the
half-bit of the latest swipe that the shifts between the swipe and the step have come to, bright
after its last half-bit and without a swipe. So steps in the periods of a whole swipe, one in each,
read what decodes to the card. -/
theorem swipe_is_read_back (period : ℕ) :
    (∀ swipes m m', SensorStep period swipes m m' →
      m'.mcu.reads = Board.levelByte (sensed period swipes m.mcuTime) :: m.mcu.reads) ∧
    ∀ code start earlier, ∀ steps : List (Machine × Machine),
      (∀ step ∈ steps, SensorStep period ((code, start) :: earlier) step.1 step.2) →
      steps.map (fun step => step.1.mcuTime.toNat / period) =
        List.range' (start.toNat / period) Swipe.halfBits →
      Swipe.decode (steps.map fun step => step.2.mcu.reads.headD 0 != 0) = some code := by
  refine ⟨fun swipes m m' h => h.reads_eq, fun code start earlier steps hsteps periods => ?_⟩
  -- The levels that were read are those of the card, one after the other.
  have hlevels : steps.map (fun step => step.2.mcu.reads.headD 0 != 0) = Swipe.levels code := by
    rw [← Swipe.map_range'_levels code (start.toNat / period), ← periods, List.map_map]
    refine List.map_congr_left fun step hstep => ?_
    rw [(hsteps step hstep).reads_eq, List.headD_cons, Board.levelByte_ne_zero]
    rfl
  rw [hlevels, Swipe.decode_levels]

/-- The steps that read the card sensor among some turns of a run, with the machines after them. -/
def sensorSteps (target : UInt64) : ℕ → Observed Machine → List (Machine × Machine)
  | 0, _ => []
  | n + 1, s =>
    match s.device.turn? target with
    | none => []
    | some turn =>
      match state? (take turn) s with
      | none => []
      | some t =>
        if turn = .mcu ∧ s.device.mcu.fetch.1.map (·.access) = some (.input Port.t0.address) then
          (s.device, t.device) :: sensorSteps target n t
        else sensorSteps target n t

/-- The steps that are found are steps that read the sensor. -/
theorem sensorStep_of_mem {target : UInt64} {n : ℕ} {s : Observed Machine}
    (h : Running target swipes s.device) :
    ∀ step ∈ sensorSteps target n s, SensorStep step.1.config.barcodeShiftCycles.toNat swipes
      step.1 step.2 := by
  intro step hstep
  induction n generalizing s with
  | zero =>
    unfold sensorSteps at hstep
    cases hstep
  | succ n ih =>
    unfold sensorSteps at hstep
    split at hstep
    · cases hstep
    · rename_i turn hturn
      split at hstep
      · cases hstep
      · rename_i t ht
        have ht := ok_of_state? ht
        have running : Running target swipes t.device := .turn h hturn ht
        split at hstep
        · rename_i hsensor
          rcases List.mem_cons.1 hstep with rfl | hstep
          · obtain ⟨rfl, hsensor⟩ := hsensor
            obtain ⟨⟨access, cycles⟩, hfetch, rfl⟩ := Option.map_eq_some_iff.1 hsensor
            exact ⟨rfl, ⟨target, s.log, t.log, h, hturn, ht⟩, cycles, hfetch⟩
          · exact ih running hstep
        · exact ih running hstep

/-- A reader reads the card that is swiped at power-on, one half-bit in every step. -/
theorem reader_reads_card : ∃ steps : List (Machine × Machine), ∃ code,
    (∀ step ∈ steps, SensorStep 4 [(code, 0)] step.1 step.2 ∧ step.2.mcu.reads =
      Board.levelByte (sensed 4 [(code, 0)] step.1.mcuTime) :: step.1.mcu.reads) ∧
    Swipe.decode (steps.map fun step => step.2.mcu.reads.headD 0 != 0) = some code := by
  let code : CardCode := ⟨0x2A, by decide⟩
  have found : ((state? (Request.swipe code).perform ⟨reader, .fresh⟩).map fun s =>
      (sensorSteps 80 100 s).map fun step =>
        (step.1.mcuTime.toNat / 4, step.1.config.barcodeShiftCycles.toNat)) =
      some ((List.range' 0 Swipe.halfBits).map fun k => (k, 4)) := by
    decide +kernel
  obtain ⟨s, hs, found⟩ := Option.map_eq_some_iff.1 found
  have hs := ok_of_state? hs
  have onward : Onward [(code, 0)] s.device := .request (.build _ _ _ _ _) hs
  have forward : s.device.now ≤ 80 := by
    rw [(fulfilled_of_perform hs).now_eq.1]
    exact UInt64.zero_le
  have hsteps : ∀ step ∈ sensorSteps 80 100 s, SensorStep 4 [(code, 0)] step.1 step.2 := by
    intro step hstep
    have hmem := List.mem_map_of_mem (f := fun step : Machine × Machine =>
      (step.1.mcuTime.toNat / 4, step.1.config.barcodeShiftCycles.toNat)) hstep
    rw [found] at hmem
    obtain ⟨k, -, hk⟩ := List.mem_map.1 hmem
    have hread := sensorStep_of_mem (.start onward forward) step hstep
    rwa [← (Prod.mk.inj hk).2] at hread
  have periods := congrArg (List.map Prod.fst) found
  rw [List.map_map, List.map_map] at periods
  obtain ⟨hreads, hdecode⟩ := swipe_is_read_back 4
  refine ⟨_, code, fun step hstep => ⟨hsteps step hstep, ?_⟩, ?_⟩
  · exact hreads _ _ _ (hsteps step hstep)
  · exact hdecode code 0 [] _ hsteps (periods.trans (by decide))

end Scanning

end Machine

end CardComputer
