import CardComputer.Proofs.Board.Picture
import CardComputer.Proofs.Op.Invariant

/-!
# The decay of grids

A tick works out which grids go dark from the ticks of their last commits, a frame from their ages.
The two agree at every clock, window and stamp: a tick names exactly the grids that show something
before it and nothing after it, and every other grid shows the same as before
(`Display.decaying_tick`, `Display.get_frame_tick_of_not_mem`).

A grid that has gone dark stays dark until something is committed to it. How often it can still go
dark is a number, at most one, that every operation pays its messages with (`Display.spare`,
`Display.Operation.exists_lines`). So between two commits a grid is said to go dark at most once.
-/

namespace CardComputer

open Op

namespace Display

/-! ## Which grids go dark -/

/-- The grids that show something on one display and nothing on another, in ascending order. -/
def darkened (d d' : Display) : List (Fin 8) :=
  (List.finRange 8).filter fun grid =>
    d.frame.grids.get grid ≠ Frame.dark ∧ d'.frame.grids.get grid = Frame.dark

theorem mem_darkened {d d' : Display} {grid : Fin 8} : grid ∈ d.darkened d' ↔
    d.frame.grids.get grid ≠ Frame.dark ∧ d'.frame.grids.get grid = Frame.dark := by
  simp [darkened]

/-- A grid decays when its window ends, if there is something to see on it. -/
theorem mem_decaying {d : Display} {grid : Fin 8} :
    grid ∈ d.decaying ↔ (∃ at_, (d.grids.get grid).refreshedAt = some at_ ∧
      at_.toNat + d.window.toNat = d.now.toNat) ∧ (d.grids.get grid).segments ≠ Frame.dark := by
  unfold decaying
  cases hat : (d.grids.get grid).refreshedAt with
  | none => simp [hat]
  | some at_ => simp [hat]

section Tick

variable {d : Display} {now : UInt64}

/-- A grid that a tick names shows nothing after it. -/
theorem get_frame_tick_of_mem (hnow : now.toNat = d.now.toNat + 1) {grid : Fin 8}
    (h : grid ∈ ({ d with now } : Display).decaying) :
    ({ d with now } : Display).frame.grids.get grid = Frame.dark := by
  obtain ⟨⟨at_, hat, hends⟩, -⟩ := mem_decaying.1 h
  dsimp only at hat hends
  have hage : ¬ now.toNat - at_.toNat < d.window.toNat := by omega
  rw [get_frame, isVisible, hat]
  simp [hage]

/-- A grid that a tick does not name shows the same as before. -/
theorem get_frame_tick_of_not_mem (hnow : now.toNat = d.now.toNat + 1) {grid : Fin 8}
    (h : grid ∉ ({ d with now } : Display).decaying) :
    ({ d with now } : Display).frame.grids.get grid = d.frame.grids.get grid := by
  rw [mem_decaying] at h
  dsimp only at h
  rw [get_frame, get_frame]
  by_cases hdark : (d.grids.get grid).segments = Frame.dark
  · -- There is nothing to see, whether the grid is visible or not.
    simp [hdark]
  · unfold isVisible
    cases hat : (d.grids.get grid).refreshedAt with
    | none => simp
    | some at_ =>
      -- The window does not end with this tick, so the grid is visible after it if it was before.
      rw [hat] at h
      have hends : at_.toNat + d.window.toNat ≠ now.toNat := fun hends => h ⟨⟨_, rfl, hends⟩, hdark⟩
      have hage : now.toNat - at_.toNat < d.window.toNat ↔
          d.now.toNat - at_.toNat < d.window.toNat := by omega
      simp [hage]

/-- A grid that a tick names showed something before. -/
theorem get_frame_ne_dark_of_mem_decaying (hnow : now.toNat = d.now.toNat + 1)
    (hwindow : 1 ≤ d.window) {grid : Fin 8} (h : grid ∈ ({ d with now } : Display).decaying) :
    d.frame.grids.get grid ≠ Frame.dark := by
  obtain ⟨⟨at_, hat, hends⟩, hseg⟩ := mem_decaying.1 h
  have hpos : 1 ≤ d.window.toNat := hwindow
  dsimp only at hat hends
  have hage : d.now.toNat - at_.toNat < d.window.toNat := by omega
  have hvisible : d.isVisible (d.grids.get grid) = true := by
    rw [isVisible, hat]
    exact decide_eq_true hage
  rw [get_frame, hvisible, if_pos rfl]
  exact hseg

/-- A tick names exactly the grids that go dark with it. -/
theorem decaying_tick (hnow : now.toNat = d.now.toNat + 1) (hwindow : 1 ≤ d.window) :
    ({ d with now } : Display).decaying = d.darkened { d with now } := by
  have hmem (grid : Fin 8) : grid ∈ ({ d with now } : Display).decaying ↔
      d.frame.grids.get grid ≠ Frame.dark ∧
        ({ d with now } : Display).frame.grids.get grid = Frame.dark := by
    constructor
    · exact fun h =>
        ⟨get_frame_ne_dark_of_mem_decaying hnow hwindow h, get_frame_tick_of_mem hnow h⟩
    · rintro ⟨hlit, hdark⟩
      exact Decidable.byContradiction fun h => hlit ((get_frame_tick_of_not_mem hnow h) ▸ hdark)
  -- Both are the grids with a property, in ascending order.
  refine List.filter_congr fun grid hgrid => Bool.eq_iff_iff.2 ?_
  calc
    _ ↔ grid ∈ ({ d with now } : Display).decaying :=
      (and_iff_right hgrid).symm.trans List.mem_filter.symm
    _ ↔ _ := (hmem grid).trans decide_eq_true_iff.symm

end Tick

/-! ## Messages about a grid -/

/-- How every message about a grid begins. -/
def heading (grid : Fin 8) : String := s!"Display: grid {grid} "

/-- Whether a line says that a grid goes dark. -/
def announcesDecay (grid : Fin 8) (line : String) : Bool :=
  (heading grid ++ "decayed at tick ").toList.isPrefixOf line.toList

/-- A line is about one grid only. -/
theorem heading_inj {grid grid' : Fin 8} {line : List Char} (h : (heading grid).toList <+: line)
    (h' : (heading grid').toList <+: line) : grid = grid' := by
  -- No heading is a prefix of another one, since they are equally long.
  have hlength : ∀ grid, (heading grid).toList.length = 16 := by decide
  have hinj : ∀ grid grid', (heading grid).toList = (heading grid').toList → grid = grid' := by
    decide
  refine hinj grid grid' (List.IsPrefix.eq_of_length ?_ ?_)
  · exact List.prefix_of_prefix_length_le h h' (Nat.le_of_eq (by rw [hlength, hlength]))
  · rw [hlength, hlength]

/-- A line that announces the decay of a grid is about that grid. -/
theorem heading_of_announcesDecay {grid : Fin 8} {line : String}
    (h : announcesDecay grid line = true) : (heading grid).toList <+: line.toList := by
  rw [announcesDecay, List.isPrefixOf_iff_prefix, String.toList_append] at h
  exact (List.prefix_append _ _).trans h

/-- The message of a commit is about its grid. -/
theorem heading_prefix_commitText (d : Display) (grid : Fin 8) :
    (heading grid).toList <+: (d.commitText grid).toList := by
  unfold commitText heading
  dsimp only
  simp only [String.toList_append, List.append_assoc, List.prefix_append_right_inj]
  exact List.prefix_append _ _

theorem decayText_eq (d : Display) (grid : Fin 8) :
    d.decayText grid = heading grid ++ "decayed at tick " ++ toString d.now := by
  have hspace : toString " decayed at tick " = toString " " ++ "decayed at tick " := by decide
  unfold decayText heading
  rw [hspace]
  simp only [String.append_assoc]

/-- The message of a decay announces that of its grid, and no other. -/
theorem announcesDecay_decayText (d : Display) (grid grid' : Fin 8) :
    announcesDecay grid (d.decayText grid') = decide (grid' = grid) := by
  by_cases h : grid' = grid
  · subst h
    have htext := congrArg String.toList (d.decayText_eq grid')
    rw [String.toList_append] at htext
    rw [announcesDecay, htext, decide_eq_true rfl, List.isPrefixOf_iff_prefix]
    exact List.prefix_append _ _
  · rw [decide_eq_false h, Bool.eq_false_iff]
    intro hannounces
    refine h (heading_inj ?_ (heading_of_announcesDecay hannounces))
    rw [decayText_eq, String.append_assoc, String.toList_append]
    exact List.prefix_append _ _

/-- The message of a commit announces no decay of another grid. -/
theorem announcesDecay_commitText (d : Display) {grid grid' : Fin 8} (hne : grid' ≠ grid) :
    announcesDecay grid (d.commitText grid') = false := by
  rw [Bool.eq_false_iff]
  exact fun h => hne (heading_inj (d.heading_prefix_commitText grid') (heading_of_announcesDecay h))

/-- Reports of refused messages begin with another letter. -/
theorem announcesDecay_drops (grid : Fin 8) (c : Log.Category) (count : Nat) :
    announcesDecay grid (Log.Line.drops c count).text = false := by
  have hheading : ∀ grid, (heading grid).toList.head? = some 'D' := by decide
  have hreport : (Log.Line.drops c count).text.toList.head? = some '[' := by
    simp only [Log.Line.text, String.toList_append, List.append_assoc]
    rfl
  rw [Bool.eq_false_iff]
  intro hannounces
  obtain ⟨rest, hrest⟩ := heading_of_announcesDecay hannounces
  rw [← hrest, List.head?_append, hheading] at hreport
  exact absurd (Option.some.inj hreport) (by decide)

/-- The decay of a grid is announced as often as the grid is among those that decay. -/
theorem countP_decayText (d : Display) (grids : List (Fin 8)) (grid : Fin 8) :
    (grids.map d.decayText).countP (announcesDecay grid) = grids.count grid := by
  rw [List.countP_map]
  refine List.countP_congr fun grid' _ => ?_
  rw [Function.comp_apply, announcesDecay_decayText]
  simp

theorem nodup_decaying (d : Display) : d.decaying.Nodup :=
  (List.nodup_finRange 8).filter _

/-! ## Between two commits -/

/-- An operation on the display. -/
inductive Operation where
  | latch (port : NibblePort) (value : UInt8)
  | commit (select : UInt8)
  | tick
  | reset

namespace Operation

/-- Carries out an operation. -/
def perform : Operation → Op Display Unit
  | latch port value => Op.update (·.latch port value)
  | commit select => Display.commit select
  | tick => Display.tick
  | reset => Op.update Display.reset

/-- Whether an operation commits something to a grid. -/
def commitsTo (grid : Fin 8) : Operation → Bool
  | commit select => SelectLines.isSet select grid
  | _ => false

end Operation

/-- Carries out operations one after another, up to the first that fails. -/
def carryOut : List Operation → Op Display Unit
  | [] => pure ()
  | op :: rest => do
    op.perform
    carryOut rest

/-- How many times a grid can still go dark unless something is committed to it: once if its window
ends after this tick. -/
def spare (grid : Fin 8) (d : Display) : Nat :=
  match (d.grids.get grid).refreshedAt with
  | some at_ => if d.now.toNat < at_.toNat + d.window.toNat then 1 else 0
  | none => 0

theorem spare_le_one (grid : Fin 8) (d : Display) : d.spare grid ≤ 1 := by
  unfold spare
  split
  · split
    · exact Nat.le_refl 1
    · exact Nat.zero_le 1
  · exact Nat.zero_le 1

/-- A commit to other grids does not matter to a grid. -/
theorem spare_committed {select : UInt8} {grid : Fin 8}
    (h : SelectLines.isSet select grid = false) (d : Display) :
    (d.committed select).spare grid = d.spare grid := by
  have hgrid : (d.committed select).grids.get grid = d.grids.get grid := by simp [h]
  unfold spare
  rw [hgrid]
  rfl

theorem spare_reset (grid : Fin 8) (d : Display) : d.reset.spare grid = 0 := by
  have hgrid : d.reset.grids.get grid = .unused := by
    show (Vector.replicate 8 Grid.unused)[grid.val] = _
    simp
  unfold spare
  rw [hgrid]
  rfl

/-- A tick that names a grid uses up its last decay, and none gives one back. -/
theorem spare_tick {d : Display} {now : UInt64} (hnow : now.toNat = d.now.toNat + 1)
    (grid : Fin 8) : ({ d with now } : Display).decaying.count grid +
      ({ d with now } : Display).spare grid ≤ d.spare grid := by
  by_cases hdecays : grid ∈ ({ d with now } : Display).decaying
  · -- The window ends with this very tick, so it had not ended before.
    have hcount := List.nodup_iff_count.1 (nodup_decaying { d with now }) grid
    obtain ⟨⟨at_, hat, hends⟩, -⟩ := mem_decaying.1 hdecays
    dsimp only at hat hends
    -- One was spare before the tick, none is after it.
    simp only [spare, hat]
    rw [if_neg (by omega), if_pos (by omega)]
    exact hcount
  · rw [List.count_eq_zero.2 hdecays, Nat.zero_add]
    unfold spare
    cases (d.grids.get grid).refreshedAt with
    | none => exact Nat.zero_le _
    | some at_ =>
      -- A window that ends after the next tick also ends after this one.
      dsimp only
      split
      · exact Nat.le_of_eq (by rw [if_pos (by omega)])
      · exact Nat.zero_le _

/-- An operation that does not commit to a grid pays for what it says about the decay of the
grid. -/
theorem Operation.exists_lines {op : Operation} {grid : Fin 8} (h : op.commitsTo grid = false)
    (s : Observed Display) : ∃ lines, (after op.perform s).log.output = lines ++ s.log.output ∧
      lines.countP (announcesDecay grid) + (after op.perform s).device.spare grid ≤
        s.device.spare grid := by
  cases op with
  | latch port value => exact ⟨[], rfl, Nat.le_of_eq (Nat.zero_add _)⟩
  | reset =>
    refine ⟨[], rfl, ?_⟩
    show 0 + s.device.reset.spare grid ≤ _
    rw [spare_reset]
    exact Nat.zero_le _
  | commit select =>
    obtain ⟨lines, houtput, hcount⟩ := Log.exists_output_sayAll
      (announcesDecay_drops grid .display) .trace
      ((SelectLines.asserted select).flatMap fun grid' =>
        if (s.device.grids.get grid').segments ≠ s.device.register
        then [s.device.commitText grid'] else []) s.log
    refine ⟨lines, ?_, ?_⟩
    · rw [perform, after, commit_eq]
      exact houtput
    · -- What a commit says is about the grids that it commits to.
      have hnone : lines.countP (announcesDecay grid) = 0 := by
        refine Nat.eq_zero_of_le_zero (Nat.le_trans hcount (Nat.le_of_eq ?_))
        refine List.countP_eq_zero.2 fun line hline => ?_
        obtain ⟨grid', hasserted, hline⟩ := List.mem_flatMap.1 hline
        split at hline
        · have hne : grid' ≠ grid := by
            rintro rfl
            exact Bool.false_ne_true (h.symm.trans (SelectLines.mem_asserted.1 hasserted))
          rw [List.mem_singleton.1 hline, announcesDecay_commitText _ hne]
          exact Bool.false_ne_true
        · cases hline
      rw [hnone, Nat.zero_add, perform, after, commit_eq]
      exact Nat.le_of_eq (spare_committed h _)
  | tick =>
    rw [perform, after]
    rcases tick_cases s.device s.log with ⟨-, htick⟩ | ⟨now, hnow, htick⟩
    · rw [htick]
      exact ⟨[], rfl, Nat.le_of_eq (Nat.zero_add _)⟩
    · obtain ⟨lines, houtput, hcount⟩ := Log.exists_output_sayAll
        (announcesDecay_drops grid .display) .debug _ s.log
      rw [htick]
      refine ⟨lines, houtput, ?_⟩
      rw [countP_decayText] at hcount
      exact Nat.le_trans (Nat.add_le_add_right hcount _) (spare_tick hnow grid)

/-- Operations that do not commit to a grid pay for all that they say about its decay. -/
theorem exists_lines_carryOut {grid : Fin 8} {run : List Operation}
    (h : ∀ op ∈ run, op.commitsTo grid = false) (s : Observed Display) :
    ∃ lines, (after (carryOut run) s).log.output = lines ++ s.log.output ∧
      lines.countP (announcesDecay grid) + (after (carryOut run) s).device.spare grid ≤
        s.device.spare grid := by
  induction run generalizing s with
  | nil => exact ⟨[], rfl, Nat.le_of_eq (Nat.zero_add _)⟩
  | cons op rest ih =>
    obtain ⟨lines, houtput, hpaid⟩ := Operation.exists_lines (h op List.mem_cons_self) s
    obtain ends | ⟨-, goesOn⟩ := after_bind op.perform (fun _ => carryOut rest) s
    · -- The run ends here.
      have hrun : after (carryOut (op :: rest)) s = after op.perform s := ends
      rw [hrun]
      exact ⟨lines, houtput, hpaid⟩
    · have hrun : after (carryOut (op :: rest)) s = after (carryOut rest) (after op.perform s) :=
        goesOn
      obtain ⟨lines', houtput', hpaid'⟩ :=
        ih (fun op hmem => h op (List.mem_cons_of_mem _ hmem)) (after op.perform s)
      rw [hrun]
      refine ⟨lines' ++ lines, by rw [houtput', houtput, List.append_assoc], ?_⟩
      rw [List.countP_append]
      omega

/-- The decay messages tell exactly when a digit goes dark. Take a display whose window is at least
one tick, whatever its register, records and clock are. A tick for which there is a number left
succeeds and changes nothing but the clock. A grid then shows what it showed before, or it showed
something and has gone dark. If messages at level debug are wanted and the limit leaves room for
them, the tick says of exactly the grids that have gone dark that they have, in ascending order.
However the log is set, a run of operations without a commit to a grid says of that grid at most
once that it has gone dark, also if the run fails. -/
theorem decay_told_exactly (d : Display) (log : Log) (hwindow : 1 ≤ d.window) :
    (d.now.toNat + 1 < UInt64.size → ∃ d' log', Display.tick ⟨d, log⟩ = .ok () ⟨d', log'⟩ ∧
      d' = { d with now := d.now + 1 } ∧
      (∀ grid, d'.frame.grids.get grid = d.frame.grids.get grid ∨
        d.frame.grids.get grid ≠ Frame.dark ∧ d'.frame.grids.get grid = Frame.dark) ∧
      (log.wants .display .debug = true →
        (log.budgets.get .display).admitted + (d.darkened d').length ≤ log.rateLimit →
        ∃ lines, log'.output = lines.reverse ++
            (if lines = [] then [] else log.overdue .display) ++ log.output ∧
          lines = (d.darkened d').map d'.decayText ∧
          ∀ grid, lines.countP (announcesDecay grid) =
            if d.frame.grids.get grid ≠ Frame.dark ∧ d'.frame.grids.get grid = Frame.dark
            then 1 else 0)) ∧
    ∀ grid run, (∀ op ∈ run, Operation.commitsTo grid op = false) →
      ∃ lines, (after (carryOut run) ⟨d, log⟩).log.output = lines ++ log.output ∧
        lines.countP (announcesDecay grid) ≤ 1 := by
  refine ⟨fun hroom => ?_, fun grid run hrun => ?_⟩
  · obtain ⟨hfull, -⟩ | ⟨now, hnow, htick⟩ := tick_cases d log
    · exact absurd hroom (Nat.not_lt.2 hfull)
    -- The addition does not wrap around, as there is a number left.
    have hnext : now = d.now + 1 := by
      rw [← UInt64.toNat_inj, hnow, UInt64.toNat_add]
      exact (Nat.mod_eq_of_lt hroom).symm
    have hdecaying := decaying_tick hnow hwindow
    refine ⟨_, _, htick, by rw [hnext], fun grid => ?_, fun hwants hlimit => ?_⟩
    · by_cases hdecays : grid ∈ ({ d with now } : Display).decaying
      · exact .inr ⟨get_frame_ne_dark_of_mem_decaying hnow hwindow hdecays,
          get_frame_tick_of_mem hnow hdecays⟩
      · exact .inl (get_frame_tick_of_not_mem hnow hdecays)
    · refine ⟨_, ?_, rfl, fun grid => ?_⟩
      · rw [hdecaying]
        exact Log.output_sayAll hwants (by rwa [List.length_map])
      · rw [countP_decayText, ← hdecaying, (nodup_decaying _).count, hdecaying]
        simp only [mem_darkened]
  · -- The run pays for its messages with what is spare at its start, at most one.
    obtain ⟨lines, houtput, hpaid⟩ := exists_lines_carryOut hrun ⟨d, log⟩
    have hspare := spare_le_one grid d
    exact ⟨lines, houtput, by dsimp only at hpaid; omega⟩

/-- A display whose fourth grid was lit at the first of two ticks that its window lasts. -/
def fading : Display := { blank 2 with grids := (blank 2).grids.set 3 ⟨0x0300, some 0⟩, now := 1 }

/-- A log that wants what the display says. -/
def watching : Log := Log.fresh.setLevel .display .debug

/-- The next tick says that the grid has gone dark, and other commits and ticks do not say so
again. -/
theorem fading_told :
    1 ≤ fading.window ∧ fading.now.toNat + 1 < UInt64.size ∧
    watching.wants .display .debug = true ∧
    (∃ d' log', Display.tick ⟨fading, watching⟩ = .ok () ⟨d', log'⟩ ∧
      fading.frame.grids.get 3 = 0x0300 ∧ d'.frame.grids.get 3 = Frame.dark ∧
      log'.output = ["Display: grid 3 decayed at tick 2"]) ∧
    ∃ lines, (after (carryOut [.tick, .commit 0x01, .tick]) ⟨fading, watching⟩).log.output =
      lines ++ watching.output ∧ lines.countP (announcesDecay 3) ≤ 1 := by
  have hwindow : 1 ≤ fading.window := by decide
  have hnow : fading.now.toNat + 1 < UInt64.size := by decide
  have hwants : watching.wants .display .debug = true := by decide
  obtain ⟨hticks, hrun⟩ := decay_told_exactly fading watching hwindow
  refine ⟨hwindow, hnow, hwants, ?_, hrun 3 _ (by decide)⟩
  obtain ⟨d', log', htick, rfl, -, hlines⟩ := hticks hnow
  obtain ⟨lines, houtput, rfl, -⟩ := hlines hwants (by decide +kernel)
  exact ⟨_, log', htick, by decide +kernel, by decide +kernel, houtput.trans (by decide +kernel)⟩

end Display

end CardComputer
