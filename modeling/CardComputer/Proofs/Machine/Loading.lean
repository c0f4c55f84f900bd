import CardComputer.Proofs.Machine.Saving

/-!
# What loading reads

A value is loaded exactly if every part of a saved machine can be read from it and the machine can
take the board over (`Machine.Holds`), and then nothing but what it holds is put in place of the
saved parts; a value that is refused changes nothing (`Machine.load_all_or_nothing`). There is a
third end: a value that is in order up to its timeline but has an entry with the last number there
is makes loading fail, since numbering cannot go on after it (`Machine.load_returns_iff`).
-/

namespace CardComputer.Machine

open Op

/-! ## Reading in stages -/

section Stages

variable {ε α β : Type} {x : ExceptT ε (Except Fault) α} {f : α → ExceptT ε (Except Fault) β}

/-- Two stages read something together if the second does with what the first has read. -/
theorem run_bind_eq_ok {b : β} : (x >>= f).run = .ok (.ok b) ↔
    ∃ a, x.run = .ok (.ok a) ∧ (f a).run = .ok (.ok b) := by
  rw [ExceptT.run_bind]
  rcases x.run with fault | e | a
  · exact ⟨nofun, nofun⟩
  · exact ⟨nofun, nofun⟩
  · show (f a).run = _ ↔ _
    simp

/-- The second of two stages is only reached if the first has no fault and refuses nothing. -/
theorem run_bind_eq_error {fault : Fault} : (x >>= f).run = .error fault ↔
    x.run = .error fault ∨ ∃ a, x.run = .ok (.ok a) ∧ (f a).run = .error fault := by
  rw [ExceptT.run_bind]
  rcases x.run with g | e | a
  · show Except.error g = _ ↔ _
    simp
  · exact ⟨nofun, by simp⟩
  · show (f a).run = _ ↔ _
    simp

/-- A stage that can only refuse. -/
theorem run_liftM_refusing (read : Except ε α) :
    (liftM read : ExceptT ε (Except Fault) α).run = .ok read := rfl

/-- A stage that can only fail. -/
theorem run_liftM_failing (result : Except Fault α) :
    (liftM result : ExceptT ε (Except Fault) α).run = result.map .ok := by
  cases result <;> rfl

theorem map_ok_eq_ok {result : Except Fault α} {a : α} :
    result.map (Except.ok (ε := ε)) = .ok (.ok a) ↔ result = .ok a := by
  cases result <;> simp [Except.map]

theorem map_ok_eq_error {result : Except Fault α} {fault : Fault} :
    result.map (Except.ok (ε := ε)) = .error fault ↔ result = .error fault := by
  cases result <;> simp [Except.map]

end Stages

/-! ## The parts of a saved machine -/

/-- A value has the form of saved machines up to its timeline: it has a board that a machine of a
configuration can take over, and entries that can be read. -/
structure Presents (c : Config) (v : Json) (board : Board) (entries : List Entry) : Prop where
  system : v.get "system" = .text savedSystem
  version : Json.decode (v.get "version") = .ok savedVersion
  io : Json.decode (v.get "io") = .ok board
  /-- The board is that of the model. -/
  model : board.model = c.model
  /-- The decay window is the one of the configuration. -/
  window : board.display.window = c.decayWindowTicks.toUInt64
  scheduler : Json.decode (v.get "scheduler") = .ok entries

/-- A value holds the parts of a snapshot that a machine of a configuration can take over. -/
structure Holds (c : Config) (v : Json) (s : Snapshot) : Prop where
  /-- The timeline has the entries of the value, in their order, and is numbered on after them. -/
  parts : ∃ entries, Presents c v s.board entries ∧ s.timeline.entries.Perm entries ∧
    Timeline.ofEntries entries = .ok s.timeline
  now : Json.decode (v.get "now") = .ok s.now
  mainTime : Json.decode (v.get "main_time") = .ok s.mainTime
  mcuTime : Json.decode (v.get "mcu_time") = .ok s.mcuTime

/-- A part is read exactly if it can be decoded. -/
theorem readPart_eq_ok_iff {α : Type} [Json.Stored α] {key : String} {v : Json} {a : α} :
    readPart key v = .ok a ↔ Json.decode (v.get key) = .ok a := by
  unfold readPart
  cases (Json.decode (v.get key) : Except Json.DecodeError α) with
  | error e => exact ⟨nofun, nofun⟩
  | ok b =>
    show (Except.ok b : Except LoadError α) = .ok a ↔ _
    simp

/-- The tag is the text that saved machines have. -/
theorem hasSavedTag_iff {v : Json} : hasSavedTag v = true ↔ v.get "system" = .text savedSystem := by
  unfold hasSavedTag
  split
  · rename_i s hs
    rw [hs]
    simp
  · rename_i hne
    exact ⟨nofun, fun h => absurd h (hne savedSystem)⟩

/-- A value has the form of saved machines exactly if its tag and its version are theirs. -/
theorem checkSavedForm_eq_ok_iff {v : Json} {u : Unit} : checkSavedForm v = .ok u ↔
    v.get "system" = .text savedSystem ∧ Json.decode (v.get "version") = .ok savedVersion := by
  rw [← hasSavedTag_iff, ← readPart_eq_ok_iff]
  unfold checkSavedForm
  by_cases htag : hasSavedTag v = true
  · cases hversion : (readPart "version" v : Except LoadError UInt64) with
    | error e => simp [htag, bind, Except.bind]
    | ok version =>
      by_cases hv : version = savedVersion
      · simp [htag, hv, bind, Except.bind, pure, Except.pure]
      · simp [htag, hv, bind, Except.bind, throw, throwThe, MonadExceptOf.throw]
  · simp [htag, bind, Except.bind, throw, throwThe, MonadExceptOf.throw]

/-- A board is read exactly if it can be decoded, is that of the model and has the decay window. -/
theorem readBoard_eq_ok_iff {c : Config} {v : Json} {board : Board} :
    readBoard c v = .ok board ↔ Json.decode (v.get "io") = .ok board ∧
      board.model = c.model ∧ board.display.window = c.decayWindowTicks.toUInt64 := by
  rw [← readPart_eq_ok_iff]
  cases hio : (readPart "io" v : Except LoadError Board) with
  | error e => simp [readBoard, hio, bind, Except.bind]
  | ok b =>
    rw [readBoard_of_io hio]
    constructor
    · intro h
      split at h
      · cases h
      · rename_i hm
        split at h
        · cases h
        · rename_i hw
          cases h
          exact ⟨rfl, Decidable.not_not.1 hm, Decidable.not_not.1 hw⟩
    · rintro ⟨h, hm, hw⟩
      cases h
      rw [if_neg (not_not_intro hm), if_neg (not_not_intro hw)]

/-- A snapshot is read exactly if the value holds it. -/
theorem readSnapshot_eq_ok_iff {c : Config} {v : Json} {s : Snapshot} :
    (readSnapshot c v).run = .ok (.ok s) ↔ Holds c v s := by
  unfold readSnapshot
  simp only [run_bind_eq_ok, run_liftM_refusing, run_liftM_failing, map_ok_eq_ok,
    Except.ok.injEq, checkSavedForm_eq_ok_iff, readBoard_eq_ok_iff, readPart_eq_ok_iff]
  constructor
  · rintro ⟨_, ⟨system, version⟩, board, ⟨io, model, window⟩, entries, scheduler, timeline,
      htimeline, now, hnow, mainTime, hmain, mcuTime, hmcu, h⟩
    cases h
    have perm := (Timeline.ofEntries_eq_ok htimeline).1
    exact ⟨⟨entries, ⟨system, version, io, model, window, scheduler⟩, perm, htimeline⟩,
      hnow, hmain, hmcu⟩
  · rintro ⟨⟨entries, h, -, htimeline⟩, hnow, hmain, hmcu⟩
    exact ⟨(), ⟨h.system, h.version⟩, s.board, ⟨h.io, h.model, h.window⟩, entries, h.scheduler,
      s.timeline, htimeline, s.now, hnow, s.mainTime, hmain, s.mcuTime, hmcu, rfl⟩

/-- Reading fails exactly if all is in order up to a timeline that has an entry with the last
number. -/
theorem readSnapshot_eq_error_iff {c : Config} {v : Json} {fault : Fault} :
    (readSnapshot c v).run = .error fault ↔ fault = .addOverflow ∧
      ∃ board entries, Presents c v board entries ∧ ∃ e ∈ entries, e.seq = Timeline.lastSeq := by
  unfold readSnapshot
  -- Only the numbering of the timeline can fail, so the other stages have to read something.
  simp only [run_bind_eq_error, run_liftM_refusing, run_liftM_failing, map_ok_eq_error,
    reduceCtorEq, false_or, Except.ok.injEq, checkSavedForm_eq_ok_iff, readBoard_eq_ok_iff,
    readPart_eq_ok_iff, Timeline.ofEntries_eq_error_iff]
  constructor
  · rintro ⟨_, ⟨system, version⟩, board, ⟨io, model, window⟩, entries, scheduler, h⟩
    rcases h with ⟨hfault, hlast⟩ | ⟨_, _, _, _, _, _, _, _, h⟩
    · exact ⟨hfault, board, entries, ⟨system, version, io, model, window, scheduler⟩, hlast⟩
    · cases h
  · rintro ⟨hfault, board, entries, h, hlast⟩
    exact ⟨(), ⟨h.system, h.version⟩, board, ⟨h.io, h.model, h.window⟩, entries, h.scheduler,
      Or.inl ⟨hfault, hlast⟩⟩

/-! ## Loading -/

/-- Loading ends as reading the snapshot does, and only a snapshot changes the machine. -/
theorem load_eq (v : Json) (m : Machine) (log : Log) :
    load v ⟨m, log⟩ = match (readSnapshot m.config v).run with
      | .ok (.ok s) => .ok (.ok ()) ⟨restore s m, log⟩
      | .ok (.error e) => .ok (.error e) ⟨m, log⟩
      | .error fault => .error fault ⟨m, log⟩ := by
  refine (bind_of_ok (device_eq_ok.2 ⟨rfl, rfl⟩)).trans ?_
  cases hread : (readSnapshot m.config v).run with
  | ok read =>
    refine (bind_of_ok (check_eq_ok.2 ⟨rfl, rfl⟩)).trans ?_
    cases read <;> rfl
  | error fault => exact bind_of_error rfl

/-- Loading is all or nothing. If a value is refused, the machine and its log are as they were. A
value is accepted exactly if it holds what is saved of a machine with a board of the model and its
decay window; then the board, the timeline, the clock and the times of the processors are those that
the value holds, and nothing else has changed. -/
theorem load_all_or_nothing (v : Json) (m : Machine) (log : Log) :
    (∀ e s', load v ⟨m, log⟩ = .ok (.error e) s' → s' = ⟨m, log⟩) ∧
    (∀ s', load v ⟨m, log⟩ = .ok (.ok ()) s' ↔ ∃ saved, Holds m.config v saved ∧
      s' = ⟨{ m with
        board := saved.board
        timeline := saved.timeline
        now := saved.now
        mainTime := saved.mainTime
        mcuTime := saved.mcuTime }, log⟩) := by
  simp only [← readSnapshot_eq_ok_iff]
  rw [load_eq]
  cases hread : (readSnapshot m.config v).run with
  | ok read =>
    cases read with
    | error e => simp [eq_comm]
    | ok snapshot => simp [restore, eq_comm]
  | error fault => simp

/-- What a machine has saved is in order up to its timeline for every machine of its model with its
decay window. -/
theorem presents_save {c : Config} {m : Machine} (model : m.board.model = c.model)
    (window : m.board.display.window = c.decayWindowTicks.toUInt64) :
    Presents c m.save m.board m.timeline.entries where
  system := rfl
  version := Json.decode_encode savedVersion
  io := Json.decode_encode m.board
  model := model
  window := window
  scheduler := Json.decode_encode m.timeline.entries

/-- A talker some time after power-on, with four bits on its display and one event to come. -/
def elapsed : Machine :=
  { talker with
    board := { talker.board with display := talker.board.display.latch .p4 0x0A }
    timeline := ⟨[⟨30, 4, .displayTick⟩], 5, List.pairwise_singleton _ _⟩
    now := 20
    mainTime := 24
    mcuTime := 22 }

/-- What an elapsed talker has saved, without the part that is read last. -/
def torn : Json :=
  match elapsed.save with
  | .object members => .object (members.filter fun member => member.1 ≠ "mcu_time")
  | v => v

/-- A machine of another model than a talker. -/
def foreign : Machine :=
  build { Config.standard with model := .gin } (by decide) talker.main talker.mcu talker.timer

/-- A machine whose display decays later than that of a talker. -/
def lasting : Machine :=
  build { Config.standard with decayWindowTicks := 50 } (by decide) talker.main talker.mcu
    talker.timer

/-- Whether a value is refused. -/
def refuses (s : Observed Machine) (v : Json) : Bool :=
  match load v s with
  | .ok (.error _) _ => true
  | _ => false

theorem refuses_eq_true_iff {s : Observed Machine} {v : Json} :
    refuses s v = true ↔ ∃ e s', load v s = .ok (.error e) s' := by
  unfold refuses
  split
  · rename_i e s' h
    exact ⟨fun _ => ⟨e, s', h⟩, fun _ => rfl⟩
  · rename_i hne
    exact ⟨nofun, fun ⟨e, s', h⟩ => absurd h (hne e s')⟩

/-- A talker at power-on that loads what an elapsed one has saved is like that one. What holds no
saved machine, one of another model, one with another decay window or one that cannot be read to the
end changes nothing. -/
theorem talker_loads_all_or_nothing :
    load elapsed.save ⟨talker, .fresh⟩ = .ok (.ok ()) ⟨elapsed, .fresh⟩ ∧
      ∀ v ∈ [Json.null, foreign.save, lasting.save, torn],
        ∃ e, load v ⟨talker, .fresh⟩ = .ok (.error e) ⟨talker, .fresh⟩ := by
  constructor
  · have presents : Presents talker.config elapsed.save elapsed.board elapsed.timeline.entries :=
      presents_save rfl rfl
    have holds : Holds talker.config elapsed.save elapsed.snapshot :=
      ⟨⟨_, presents, .refl _, rfl⟩, Json.decode_encode elapsed.now,
        Json.decode_encode elapsed.mainTime, Json.decode_encode elapsed.mcuTime⟩
    exact ((load_all_or_nothing _ talker .fresh).2 _).2 ⟨_, holds, rfl⟩
  · intro v hv
    have hrefused : refuses ⟨talker, .fresh⟩ v = true := by
      revert v
      decide +kernel
    obtain ⟨e, s', h⟩ := refuses_eq_true_iff.1 hrefused
    obtain rfl := (load_all_or_nothing v talker .fresh).1 e s' h
    exact ⟨e, h⟩

/-! ## Values that cannot be numbered on -/

/-- Loading fails exactly if all is in order up to a timeline that has an entry with the last
number, and it has changed nothing then. -/
theorem load_eq_error_iff {v : Json} {m : Machine} {log : Log} {fault : Fault}
    {s' : Observed Machine} : load v ⟨m, log⟩ = .error fault s' ↔
      (fault = .addOverflow ∧ ∃ board entries, Presents m.config v board entries ∧
        ∃ e ∈ entries, e.seq = Timeline.lastSeq) ∧ s' = ⟨m, log⟩ := by
  rw [← readSnapshot_eq_error_iff, load_eq]
  cases hread : (readSnapshot m.config v).run with
  | ok read => cases read <;> simp
  | error g => simp [eq_comm]

/-- Loading returns, with a machine loaded or refused, exactly if the value is not one that is in
order up to a timeline with an entry that has the last number. -/
theorem load_returns_iff (v : Json) (m : Machine) (log : Log) :
    (∃ result s', load v ⟨m, log⟩ = .ok result s') ↔
      ∀ board entries, Presents m.config v board entries →
        ∀ e ∈ entries, e.seq ≠ Timeline.lastSeq := by
  constructor
  · rintro ⟨result, s', hok⟩ board entries presents e he hlast
    have failed : load v ⟨m, log⟩ = .error .addOverflow ⟨m, log⟩ :=
      load_eq_error_iff.2 ⟨⟨rfl, board, entries, presents, e, he, hlast⟩, rfl⟩
    rw [hok] at failed
    cases failed
  · intro h
    cases hload : load v ⟨m, log⟩ with
    | ok result s' => exact ⟨result, s', rfl⟩
    | error fault s' =>
      obtain ⟨⟨-, board, entries, presents, e, he, hlast⟩, -⟩ := load_eq_error_iff.1 hload
      exact absurd hlast (h board entries presents e he)

/-- A talker whose timeline has given out the last number. -/
def worn : Machine :=
  { talker with
    timeline := ⟨[⟨0, Timeline.lastSeq, .displayTick⟩], 0, List.pairwise_singleton _ _⟩ }

/-- A talker that is to load what a worn one has saved neither loads nor refuses it. -/
theorem talker_fails_to_load : load worn.save ⟨talker, .fresh⟩ =
    .error .addOverflow ⟨talker, .fresh⟩ := by
  have presents : Presents talker.config worn.save worn.board worn.timeline.entries :=
    presents_save rfl rfl
  exact load_eq_error_iff.2
    ⟨⟨rfl, worn.board, _, presents, _, List.mem_singleton_self _, rfl⟩, rfl⟩

end CardComputer.Machine
