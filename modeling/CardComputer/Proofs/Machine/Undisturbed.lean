import CardComputer.Proofs.Machine.Side

/-!
# The undisturbed coprocessor

Two machines of one configuration whose coprocessors run the same script, deaf to the mailbox, are
level (`Machine.Level`): the coprocessor's side is the same, and so is the clock. Calls keep them
level, whatever their main units do and however long the words take that these speak
(`Machine.Level.perform`). So what the coprocessor reads and what the display shows tells nothing of
the main unit (`Machine.coprocessor_undisturbed`).
-/

namespace CardComputer.Machine

open Op

/-- Two machines whose coprocessors' sides and clocks are the same. -/
structure Level (m m' : Machine) : Prop where
  side : m'.side = m.side
  now : m'.now = m.now

section Level

variable {m n m' n' : Machine} {target : UInt64} {s t s' t' : Observed Machine}

theorem Level.config (h : Level m n) : n.config = m.config := congrArg Side.config h.side

theorem Level.mcu (h : Level m n) : n.mcu = m.mcu := congrArg Side.mcu h.side

theorem Level.mcuTime (h : Level m n) : n.mcuTime = m.mcuTime := congrArg Side.mcuTime h.side

theorem Level.near (h : Level m n) : n.board.near = m.board.near := congrArg Side.board h.side

theorem Level.pending (h : Level m n) : n.timeline.peripheral = m.timeline.peripheral :=
  congrArg Side.pending h.side

/-- A request puts the same on both timelines, but for the number of a completion. -/
theorem Level.posted {r : Request} {event event' : Event} {timeline timeline' : Timeline}
    (level : Level m n) (orderly : m.timeline.Orderly) (orderly' : n.timeline.Orderly)
    (posts : r.event? m = some event) (posts' : r.event? n = some event')
    (scheduled : m.timeline.schedule m.now event = .ok timeline)
    (scheduled' : n.timeline.schedule n.now event' = .ok timeline') :
    Level { m with timeline } { n with timeline := timeline' } := by
  have same {event : Event} (hs : m.timeline.schedule m.now event = .ok timeline)
      (hs' : n.timeline.schedule n.now event = .ok timeline') (hk : event.isPeripheral = true) :
      timeline'.peripheral = timeline.peripheral := by
    rw [Timeline.peripheral_schedule orderly' hs' hk, Timeline.peripheral_schedule orderly hs hk,
      level.now, level.pending]
  have hpending : timeline'.peripheral = timeline.peripheral := by
    cases r with
    | swipe code =>
      cases posts
      cases posts'
      exact same scheduled scheduled' rfl
    | setKey key pressed =>
      cases posts
      cases posts'
      exact same scheduled scheduled' rfl
    | speechDone =>
      -- The stalls have different numbers, but a completion concerns the main unit only.
      cases posts
      cases posts'
      rw [Timeline.peripheral_schedule_of_not scheduled' rfl,
        Timeline.peripheral_schedule_of_not scheduled rfl, level.pending]
    | install timer => cases posts
    | pressReset => cases posts
  exact ⟨Side.ext level.config level.mcu level.mcuTime level.near hpending, level.now⟩

/-- A request keeps both level. -/
theorem Level.fulfilled {r : Request} (level : Level m n) (orderly : m.timeline.Orderly)
    (orderly' : n.timeline.Orderly) (h : Fulfilled m r m') (h' : Fulfilled n r n') :
    Level m' n' := by
  cases h with
  | install timer =>
    cases h' with
    | install => exact ⟨level.side, level.now⟩
    | posted posts' => cases posts'
  | pressReset =>
    cases h' with
    | pressReset =>
      have hnear := congrArg (fun b : Board => { b with mailbox := .empty }) level.near
      have hmcu := congrArg Processor.reset level.mcu
      exact ⟨Side.ext level.config hmcu level.mcuTime hnear level.pending, level.now⟩
    | posted posts' => cases posts'
  | posted posts scheduled =>
    cases h' with
    | install => cases posts
    | pressReset => cases posts
    | posted posts' scheduled' =>
      exact level.posted orderly orderly' posts posts' scheduled scheduled'

/-- Runs to the same time keep both level. -/
theorem Level.runUntil (level : Level s.device t.device) (regular : s.device.Regular)
    (regular' : t.device.Regular) (deaf : s.device.mcu.Deaf)
    (h : runUntil target s = .ok () s') (h' : runUntil target t = .ok () t') :
    Level s'.device t'.device ∧ s'.device.mcu.Deaf := by
  obtain ⟨u, hu, rfl⟩ := runUntil_eq_ok.1 h
  obtain ⟨u', hu', rfl⟩ := runUntil_eq_ok.1 h'
  have deaf' : t.device.mcu.Deaf := level.mcu ▸ deaf
  obtain ⟨hends, hdeaf⟩ := ends_of_turns regular deaf hu
  obtain ⟨hends', -⟩ := ends_of_turns regular' deaf' hu'
  rw [level.side] at hends'
  -- The arrival changes the clock and the time of the main unit only.
  have hside : u'.device.side = u.device.side := hends'.unique hends
  exact ⟨⟨hside, rfl⟩, hdeaf⟩

/-- A reset keeps both level. -/
theorem Level.reset (level : Level m n) : Level m.reset n.reset := by
  have hmcu := congrArg Processor.reset level.mcu
  have hnear := congrArg (fun b : Board => b.reset.near) level.near
  have hpending := congrArg (fun c => (powerOnTimeline c).peripheral) level.config
  exact ⟨Side.ext level.config hmcu rfl hnear hpending, rfl⟩

/-- A machine that is loaded, or refused, keeps both level. -/
theorem Level.load {v : Json} {a b : Except LoadError Unit} (level : Level s.device t.device)
    (h : load v s = .ok a s') (h' : load v t = .ok b t') :
    b = a ∧ Level s'.device t'.device ∧ s'.device.mcu = s.device.mcu := by
  have hconfig := level.config
  rcases load_eq_ok h with ⟨snapshot, hread, rfl, rfl⟩ | ⟨e, hread, rfl, rfl⟩
  · rcases load_eq_ok h' with ⟨snapshot', hread', rfl, rfl⟩ | ⟨e, hread', rfl, rfl⟩
    · rw [hconfig, hread] at hread'
      cases hread'
      exact ⟨rfl, ⟨Side.ext hconfig level.mcu rfl rfl rfl, rfl⟩, rfl⟩
    · rw [hconfig, hread] at hread'
      cases hread'
  · rcases load_eq_ok h' with ⟨snapshot', hread', rfl, rfl⟩ | ⟨e, hread', rfl, rfl⟩
    · rw [hconfig, hread] at hread'
      cases hread'
    · rw [hconfig, hread] at hread'
      cases hread'
      exact ⟨rfl, level, rfl⟩

theorem Fulfilled.deaf {r : Request} (h : Fulfilled m r m') (deaf : m.mcu.Deaf) :
    m'.mcu.Deaf := by
  cases h <;> exact deaf

/-- A call that succeeds on both keeps them level and answers the same. -/
theorem Level.perform {c : Call} {a b : Answer} {past past' : List Machine}
    (level : Level s.device t.device) (hs : History past s.device) (ht : History past' t.device)
    (deaf : s.device.mcu.Deaf) (h : c.perform s = .ok a s') (h' : c.perform t = .ok b t') :
    b = a ∧ Level s'.device t'.device ∧ s'.device.mcu.Deaf := by
  cases c with
  | request r =>
    obtain ⟨_, u, hu, h⟩ := bind_eq_ok.1 h
    obtain ⟨_, u', hu', h'⟩ := bind_eq_ok.1 h'
    obtain ⟨rfl, rfl⟩ := pure_eq_ok.1 h
    obtain ⟨rfl, rfl⟩ := pure_eq_ok.1 h'
    have fulfilled := fulfilled_of_perform hu
    refine ⟨rfl, ?_, fulfilled.deaf deaf⟩
    exact level.fulfilled hs.regular.orderly ht.regular.orderly fulfilled
      (fulfilled_of_perform hu')
  | reset =>
    obtain ⟨_, u, hu, h⟩ := bind_eq_ok.1 h
    obtain ⟨_, u', hu', h'⟩ := bind_eq_ok.1 h'
    obtain ⟨rfl, rfl⟩ := pure_eq_ok.1 h
    obtain ⟨rfl, rfl⟩ := pure_eq_ok.1 h'
    obtain rfl := update_eq_ok.1 hu
    obtain rfl := update_eq_ok.1 hu'
    exact ⟨rfl, level.reset, deaf⟩
  | runUntil target =>
    obtain ⟨_, u, hu, h⟩ := bind_eq_ok.1 h
    obtain ⟨_, u', hu', h'⟩ := bind_eq_ok.1 h'
    obtain ⟨rfl, rfl⟩ := pure_eq_ok.1 h
    obtain ⟨rfl, rfl⟩ := pure_eq_ok.1 h'
    exact ⟨rfl, level.runUntil hs.regular ht.regular deaf hu hu'⟩
  | stepFrame =>
    obtain ⟨frame, u, hu, h⟩ := bind_eq_ok.1 h
    obtain ⟨frame', u', hu', h'⟩ := bind_eq_ok.1 h'
    obtain ⟨rfl, rfl⟩ := pure_eq_ok.1 h
    obtain ⟨rfl, rfl⟩ := pure_eq_ok.1 h'
    obtain ⟨target, htarget, hrun, rfl⟩ := runUntil_of_stepFrame hu
    obtain ⟨target', htarget', hrun', rfl⟩ := runUntil_of_stepFrame hu'
    -- The frame ends at the same time.
    rw [level.now, level.config, ← htarget] at htarget'
    obtain rfl := UInt64.toNat_inj.1 htarget'
    have stop := level.runUntil hs.regular ht.regular deaf hrun hrun'
    exact ⟨congrArg Answer.frame (congrArg (fun b => b.display.frame) stop.1.near), stop⟩
  | load saved =>
    obtain ⟨result, u, hu, h⟩ := bind_eq_ok.1 h
    obtain ⟨result', u', hu', h'⟩ := bind_eq_ok.1 h'
    obtain ⟨rfl, rfl⟩ := pure_eq_ok.1 h
    obtain ⟨rfl, rfl⟩ := pure_eq_ok.1 h'
    obtain ⟨rfl, hlevel, hmcu⟩ := level.load hu hu'
    exact ⟨rfl, hlevel, hmcu ▸ deaf⟩

/-- Calls that succeed on both keep them level and answer the same. -/
theorem Level.performAll {calls : List Call} {a b : List Answer} {past past' : List Machine}
    (level : Level s.device t.device) (hs : History past s.device) (ht : History past' t.device)
    (origin : ∀ saved, .load saved ∈ calls → ∃ past, History past saved)
    (deaf : s.device.mcu.Deaf) (h : performAll calls s = .ok a s')
    (h' : performAll calls t = .ok b t') : b = a ∧ Level s'.device t'.device := by
  induction calls generalizing s t past past' a b with
  | nil =>
    obtain ⟨rfl, rfl⟩ := pure_eq_ok.1 h
    obtain ⟨rfl, rfl⟩ := pure_eq_ok.1 h'
    exact ⟨rfl, level⟩
  | cons c calls ih =>
    obtain ⟨answer, u, hu, h⟩ := bind_eq_ok.1 h
    obtain ⟨answer', u', hu', h'⟩ := bind_eq_ok.1 h'
    obtain ⟨answers, v, hv, h⟩ := bind_eq_ok.1 h
    obtain ⟨answers', v', hv', h'⟩ := bind_eq_ok.1 h'
    obtain ⟨rfl, rfl⟩ := pure_eq_ok.1 h
    obtain ⟨rfl, rfl⟩ := pure_eq_ok.1 h'
    have first (saved : Machine) (hc : c = .load saved) : ∃ past, History past saved :=
      origin saved (hc ▸ List.mem_cons_self)
    obtain ⟨_, hu₁⟩ := hs.perform first hu
    obtain ⟨_, hu₂⟩ := ht.perform first hu'
    obtain ⟨rfl, hlevel, hdeaf⟩ := level.perform hs ht deaf hu hu'
    obtain ⟨rfl, hstop⟩ := ih hlevel hu₁ hu₂ (fun saved hmem =>
      origin saved (List.mem_cons_of_mem c hmem)) hdeaf hv hv'
    exact ⟨rfl, hstop⟩

end Level

/-- What the coprocessor has read, what it is connected to but the mailbox, and what the host sees
are the same. -/
structure SideAlike (m m' : Machine) : Prop where
  mcu : m'.mcu = m.mcu
  mcuTime : m'.mcuTime = m.mcuTime
  now : m'.now = m.now
  scanner : m'.board.scanner = m.board.scanner
  lines : m'.board.lines = m.board.lines
  display : m'.board.display = m.board.display
  expander : m'.board.expander = m.board.expander
  keypad : m'.board.keypad = m.board.keypad
  speaker : m'.board.speaker = m.board.speaker
  frame : m'.frame = m.frame

/-- All this is on the coprocessor's side. -/
theorem Level.sideAlike {m n : Machine} (h : Level m n) : SideAlike m n := by
  have part {α : Type} (f : Board → α) (hf : ∀ b : Board, f b.near = f b) :
      f n.board = f m.board := by
    rw [← hf, h.near, hf]
  exact {
    mcu := h.mcu
    mcuTime := h.mcuTime
    now := h.now
    scanner := part Board.scanner fun _ => rfl
    lines := part Board.lines fun _ => rfl
    display := part Board.display fun _ => rfl
    expander := part Board.expander fun _ => rfl
    keypad := part Board.keypad fun _ => rfl
    speaker := part Board.speaker fun _ => rfl
    frame := part (fun b => b.display.frame) fun _ => rfl }

/-- The main unit cannot disturb the coprocessor's side. After the same calls two machines of one
configuration whose coprocessors run the same script look alike, whatever their main units do and
however long their words take, if the coprocessors do not look into the mailbox and nothing
overflows. -/
theorem coprocessor_undisturbed (config : Config) (valid : config.Valid) {mcu : Processor}
    (deaf : mcu.Deaf) (main main' : Processor) (timer timer' : Option PlaybackTimer)
    {calls : List Call} (origin : ∀ saved, .load saved ∈ calls → ∃ past, History past saved)
    {log log' : Log} {a a' : List Answer} {s s' : Observed Machine}
    (h : performAll calls ⟨build config valid main mcu timer, log⟩ = .ok a s)
    (h' : performAll calls ⟨build config valid main' mcu timer', log'⟩ = .ok a' s') :
    a' = a ∧ SideAlike s.device s'.device := by
  have level : Level (build config valid main mcu timer) (build config valid main' mcu timer') :=
    ⟨rfl, rfl⟩
  obtain ⟨rfl, stop⟩ := level.performAll (.build config valid main mcu timer)
    (.build config valid main' mcu timer') origin deaf h h'
  exact ⟨rfl, stop.sideAlike⟩

/-- A machine whose coprocessor reads the card sensor in every step. -/
def listener (main : Processor) (timer : Option PlaybackTimer) : Machine :=
  build .standard Config.valid_standard main (.ofScript #[⟨.input Port.t0.address, 4⟩] true) timer

/-- A request and a run whose turns are known. -/
theorem performAll_of_after? {r : Request} {target : UInt64} {n : Nat} {s t u : Observed Machine}
    (hr : state? r.perform s = some t) (ht : after? target n t = some u)
    (hu : u.device.turn? target = none) :
    performAll [.request r, .runUntil target] s =
      .ok [.done, .done] { u with device := arrive target u.device } := by
  have hrun := runUntil_eq_ok.2 ⟨u, turns_of_after? ht hu, rfl⟩
  have first : (Call.request r).perform s = .ok .done t := bind_of_ok (ok_of_state? hr)
  have second : (Call.runUntil target).perform t = .ok .done _ := bind_of_ok hrun
  have last : performAll [.runUntil target] t = .ok [.done] _ := bind_of_ok second
  exact (bind_of_ok first).trans (bind_of_ok last)

/-- Of two machines one is stalled by its first word, the other is not, and their coprocessors read
the same. -/
theorem listeners_undisturbed : ∃ code a s t,
    performAll [.request (.swipe code), .runUntil 20] ⟨listener
      (.ofScript #[⟨.store Board.speechBase 7, 4⟩] false) (some (.fixed 100)), .fresh⟩ = .ok a s ∧
    performAll [.request (.swipe code), .runUntil 20]
      ⟨listener (.ofScript #[] false) none, .fresh⟩ = .ok a t ∧
    s.device.isStalled = true ∧ t.device.isStalled = false ∧ SideAlike s.device t.device := by
  let code : CardCode := ⟨0x2A, by decide⟩
  have stop (main : Processor) (timer : Option PlaybackTimer) (n : Nat) (stalled : Bool)
      (h : (((state? (Request.swipe code).perform ⟨listener main timer, .fresh⟩).bind
        (after? 20 n)).any fun u => u.device.turn? 20 = none ∧ u.device.isStalled = stalled) =
        true) :
      ∃ a s, performAll [.request (.swipe code), .runUntil 20]
        ⟨listener main timer, .fresh⟩ = .ok a s ∧ s.device.isStalled = stalled := by
    obtain ⟨u, hu, hstop⟩ := (Option.any_eq_true _ _).1 h
    obtain ⟨t, ht, hu⟩ := Option.bind_eq_some_iff.1 hu
    obtain ⟨hturn, hstalled⟩ := of_decide_eq_true hstop
    exact ⟨_, _, performAll_of_after? ht hu hturn, hstalled⟩
  obtain ⟨a, s, hs, hstalled⟩ := stop (.ofScript #[⟨.store Board.speechBase 7, 4⟩] false)
    (some (.fixed 100)) 7 true (by decide +kernel)
  obtain ⟨a', t, ht, hrunning⟩ := stop (.ofScript #[] false) none 9 false (by decide +kernel)
  have deaf : (Processor.ofScript #[⟨.input Port.t0.address, 4⟩] true).Deaf := by
    intro i hi
    obtain rfl : i = ⟨.input Port.t0.address, 4⟩ := by simpa [Processor.ofScript] using hi
    exact ⟨by decide, by decide⟩
  obtain ⟨rfl, alike⟩ := coprocessor_undisturbed _ _ deaf _ _ _ _ (by simp) hs ht
  exact ⟨code, a', s, t, hs, ht, hstalled, hrunning, alike⟩

end CardComputer.Machine
