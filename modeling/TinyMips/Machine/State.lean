import TinyMips.Assembly.Program
import TinyMips.Machine.Stage
import TinyMips.Machine.Statistics
import TinyMips.Register.File

/-!
# Machine states

The architectural state is the program counter, the registers and both stores. Beside it a machine
keeps what it tells about its run: warnings, trace, statistics and the number of instructions
started. `Snapshot` is the part that describes where a run stands.
-/

namespace TinyMips

/-- What stops a run. -/
inductive Fault where
  /-- A stage used an address that its region refuses. -/
  | address (stage : Stage) (error : AddressError)
  /-- The instruction was never part of a successful assembly. -/
  | notAssembled (pc : Address)
  /-- The instruction still waits for a label. -/
  | unresolved (pc : Address) (label : String)
  /-- The run used up its steps. -/
  | stepLimit (limit : Nat)
  deriving DecidableEq

/-- The wording of a fault. -/
def Fault.message : Fault → String
  | address stage error => s!"{stage.title}: {error.message}"
  | notAssembled pc => s!"instruction at {pc.text} was never assembled"
  | unresolved pc label =>
    s!"instruction at {pc.text} still refers to unresolved label \"{label}\""
  | stepLimit limit =>
    s!"step limit of {limit} instructions reached without a terminal instruction"

/-- A machine. -/
structure Machine where
  /-- The address of the next instruction; none once the run has ended. -/
  pc : Option Address := some (Region.text.addressOf 0)
  registers : RegisterFile := {}
  text : TextStore := {}
  data : DataStore := {}
  /-- The warnings of the run. -/
  log : Log := {}
  trace : Array TraceBlock := #[]
  statistics : Statistics := {}
  /-- Whether reports are kept in the trace. -/
  tracing : Bool := true
  /-- Instructions started, the current one included; an exact count like the statistics. -/
  steps : Nat := 0

/-- Where a run stands. -/
structure Snapshot where
  pc : Option Address
  /-- The registers that are not zero. -/
  registers : List (Reg × Word)
  /-- The data slots that were written. -/
  memory : List (Address × Word)
  deriving DecidableEq

namespace Machine

/-- A machine that holds a program, at its first instruction. -/
def load (program : Program) (tracing : Bool) : Machine :=
  { text := program.text, data := program.data, tracing }

/-- Whether the run has ended. -/
def isHalted (machine : Machine) : Bool :=
  machine.pc.isNone

/-- Where the run stands. -/
def snapshot (machine : Machine) : Snapshot :=
  { pc := machine.pc
    registers := machine.registers.nonZero
    memory := machine.data.written }

/-- The machine with one more report in its trace, if it keeps one. -/
def record (machine : Machine) (pc : Address) (report : StageReport) : Machine :=
  if machine.tracing then
    { machine with trace := machine.trace.push { step := machine.steps, pc, report } }
  else machine

/-- Offers a value to a register on behalf of a source line. The answer says whether it was
committed. -/
def writeRegister (machine : Machine) (r : Reg) (value : Word) (line : Option Nat) :
    Bool × Machine :=
  let (committed, registers, log) := machine.registers.commit machine.log r value line
  (committed, { machine with registers, log })

end Machine

end TinyMips
