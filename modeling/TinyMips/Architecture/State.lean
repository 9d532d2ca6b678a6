import TinyMips.Machine.State

/-!
# The architecture

The part of a machine that its instructions can see: the program counter, the registers and the
data. What an instruction means is said on this part alone, in `Architecture.Semantics`, and a
trace can be replayed on it, in `Architecture.Replay`.
-/

namespace TinyMips

/-- The state that instructions read and write. -/
structure Architecture where
  /-- The address of the next instruction; none once the run has ended. -/
  pc : Option Address
  registers : RegisterFile
  data : DataStore

namespace Architecture

/-- The value of a register. -/
def read (state : Architecture) (r : Reg) : Word :=
  state.registers.read r

/-- The state with a value in a register; `r0` keeps its zero. -/
def assign (state : Architecture) (r : Reg) (value : Word) : Architecture :=
  { state with registers := (state.registers.write? r value).getD state.registers }

/-- A register reads what was last assigned to it, unless it is `r0`. -/
theorem read_assign (state : Architecture) (r : Reg) (value : Word) (q : Reg) :
    (state.assign r value).read q = if q = r ∧ r ≠ .zero then value else state.read q := by
  unfold assign read
  cases written : state.registers.write? r value with
  | none =>
    rw [RegisterFile.write?_eq_none_iff] at written
    simp [written]
  | some registers =>
    have proper : r ≠ .zero := by
      intro zero
      rw [RegisterFile.write?_eq_none_iff.mpr zero] at written
      contradiction
    simp [RegisterFile.read_of_write? written, proper]

/-- The state that goes on at an address. -/
def goTo (state : Architecture) (pc : Address) : Architecture :=
  { state with pc := some pc }

end Architecture

/-- The architectural state of a machine. -/
def Machine.architecture (machine : Machine) : Architecture :=
  { pc := machine.pc, registers := machine.registers, data := machine.data }

end TinyMips
