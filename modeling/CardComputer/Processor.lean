import CardComputer.Board.Bus

/-!
# Scripted processors

A processor works off a script of bus accesses, one per step. At the end of its script it idles, or
starts over if it loops and there is something to do. It keeps the bytes that it read.
-/

namespace CardComputer

/-- One access to the bus. -/
inductive Access where
  | output (port value : UInt8)
  | input (port : UInt8)
  | store (address : UInt16) (value : UInt8)
  | load (address : UInt16)
  | idle
deriving DecidableEq

namespace Access

/-- Makes an access; answers with the byte it reads, if it reads one. -/
def perform {σ : Type} (bus : Bus σ) : Access → Op σ (Option UInt8)
  | output port value => do
    bus.output port value
    return none
  | input port => return some (← bus.input port)
  | store address value => do
    bus.store address value
    return none
  | load address => return some (← bus.load address)
  | idle => return none

end Access

/-- One step of a script. -/
structure Instruction where
  access : Access
  /-- How many cycles the step reports. -/
  cycles : UInt32
deriving DecidableEq

/-- A processor with its script. -/
structure Processor where
  script : Array Instruction
  /-- Whether the script starts over at its end. -/
  loops : Bool
  /-- The place of the next step in the script. -/
  pc : Nat
  /-- The bytes read so far, the newest first. -/
  reads : List UInt8
  /-- How many steps were made. -/
  steps : Nat
  /-- How many times the processor was reset. -/
  resets : Nat
deriving DecidableEq

namespace Processor

/-- The cycles that a step without an instruction reports. -/
def idleCycles : UInt32 := 4

/-- A processor at the start of a script. -/
def ofScript (script : Array Instruction) (loops : Bool) : Processor where
  script
  loops
  pc := 0
  reads := []
  steps := 0
  resets := 0

/-- The processor at the start of its script again. What it read and how often it stepped stays. -/
def reset (p : Processor) : Processor :=
  { p with pc := 0, resets := p.resets + 1 }

/-- Where the next step stands in the script, if there is one. -/
def nextPc? (p : Processor) : Option Nat :=
  if p.pc < p.script.size then some p.pc
  else if p.loops ∧ 0 < p.script.size then some 0
  else none

/-- Begins a step: counts it, and answers with the instruction to carry out, if there is one. -/
def fetch (p : Processor) : Option Instruction × Processor :=
  let p := { p with steps := p.steps + 1 }
  match p.nextPc? with
  | some pc => (p.script[pc]?, { p with pc })
  | none => (none, p)

/-- Ends a step: keeps the byte that was read and goes on to the next place. -/
def retire (p : Processor) (read : Option UInt8) : Processor :=
  { p with
    pc := p.pc + 1
    reads := match read with
      | some byte => byte :: p.reads
      | none => p.reads }

end Processor

end CardComputer
