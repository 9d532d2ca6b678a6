import TinyMips.Machine.Step

/-!
# Simulations

A simulation drives a machine until it halts, faults, or has started as many instructions as it
may. Whatever ends it, the machine is left as it stands then.
-/

namespace TinyMips

/-- A machine with the warnings of its program's assembly and a limit on the instructions that it
may start. -/
structure Simulation where
  machine : Machine
  buildLog : Log := {}
  limit : Nat

namespace Simulation

/-- The simulation of a program from its first instruction. -/
def load (program : Program) (tracing : Bool) (limit : Nat) : Simulation :=
  { machine := .load program tracing, buildLog := program.log, limit }

/-- Executes one instruction, unless the limit is reached. -/
def step (simulation : Simulation) : Except Fault Unit × Simulation :=
  if simulation.limit ≤ simulation.machine.steps then
    (.error (.stepLimit simulation.limit), simulation)
  else
    let (result, machine) := simulation.machine.step
    (result, { simulation with machine })

/-- Executes instructions until one ends the run, at most as many as the budget and then one that
the limit refuses. -/
def runFor (simulation : Simulation) : Nat → Except Fault Unit × Simulation
  | 0 =>
    if simulation.machine.isHalted then (.ok (), simulation)
    else (.error (.stepLimit simulation.limit), simulation)
  | budget + 1 =>
    if simulation.machine.isHalted then (.ok (), simulation)
    else
      match simulation.step with
      | (.ok (), simulation) => simulation.runFor budget
      | (.error fault, simulation) => (.error fault, simulation)

/-- Executes instructions until the machine halts or a fault stops it. Every step counts against
the limit, so there are never more than are left of it. -/
def run (simulation : Simulation) : Except Fault Unit × Simulation :=
  simulation.runFor (simulation.limit - simulation.machine.steps)

end Simulation

end TinyMips
