import CardComputer.Proofs.Board.Outcome
import CardComputer.Proofs.Machine.Effect

/-!
# Steps of the coprocessor

What a step of the coprocessor does to it and to the board is a function of the two
(`Processor.afterStep`), since its accesses cannot fail. A step reads at most one byte, which is
kept before the earlier ones (`Processor.reads_afterStep`).
-/

namespace CardComputer

open Op

namespace Processor

/-- The coprocessor and the board after a step, and the cycles that the step took. -/
def afterStep (p : Processor) (b : Board) : Processor × Board × UInt32 :=
  match p.fetch with
  | (none, p) => (p, b, idleCycles)
  | (some i, p) =>
    let (read, b) := b.afterAccess i.access
    (p.retire read, b, max i.cycles 1)

/-- A step of the coprocessor does what the function says. -/
theorem Step.eq_afterStep {p p' : Processor} {b b' : Board} {cycles : UInt32}
    (h : p.Step Board.mcuBus b p' b' cycles) : p.afterStep b = (p', b', cycles) := by
  cases h with
  | idle fetch => simp only [afterStep, fetch]
  | access fetch performed =>
    obtain ⟨hread, hboard⟩ := (Board.does_perform_mcuBus _).of_ok performed
    simp only [afterStep, fetch, hread, hboard]

/-- A step counts no display tick. -/
theorem Step.display_now_eq {p p' : Processor} {b b' : Board} {cycles : UInt32}
    (h : p.Step Board.mcuBus b p' b' cycles) : b'.display.now = b.display.now := by
  have hstep := h.eq_afterStep
  unfold afterStep at hstep
  rcases hf : p.fetch with ⟨_ | i, q⟩
  · rw [hf] at hstep
    cases hstep
    rfl
  · rw [hf] at hstep
    cases hstep
    exact Board.display_now_afterAccess b i.access

/-- Fetching an instruction keeps the script and what was read. -/
theorem fetch_eq (p : Processor) : p.fetch.2.script = p.script ∧ p.fetch.2.reads = p.reads := by
  unfold fetch
  dsimp only
  split
  · exact ⟨rfl, rfl⟩
  · exact ⟨rfl, rfl⟩

/-- The script stays as it is. -/
theorem script_afterStep (p : Processor) (b : Board) : (p.afterStep b).1.script = p.script := by
  have hfetch := p.fetch_eq.1
  unfold afterStep
  rcases hf : p.fetch with ⟨_ | i, q⟩
  · rw [hf] at hfetch
    exact hfetch
  · rw [hf] at hfetch
    exact hfetch

/-- A byte that a step reads is kept. -/
theorem reads_afterStep {p : Processor} {i : Instruction} {byte : UInt8} {b : Board}
    (fetch : p.fetch.1 = some i) (read : (b.afterAccess i.access).1 = some byte) :
    (p.afterStep b).1.reads = byte :: p.reads := by
  have hfetch := p.fetch_eq.2
  unfold afterStep
  rcases hf : p.fetch with ⟨_ | j, q⟩
  · rw [hf] at fetch
    cases fetch
  · rw [hf] at fetch hfetch
    cases fetch
    simp only [retire, read]
    exact congrArg _ hfetch

end Processor

end CardComputer
