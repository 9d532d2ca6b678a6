import TinyMips.Datapath.Signals
import TinyMips.Isa.Disassembly

/-!
# Stage reports

An instruction passes through six stages. Each stage's result is a report, which the stages after
it read and the trace keeps.
-/

namespace TinyMips

/-- The stages of an instruction, in order. -/
inductive Stage where
  | fetch
  | decode
  | readOperands
  | execute
  | memoryAccess
  | writeBack
  deriving DecidableEq

namespace Stage

/-- Every stage, in order. -/
def all : List Stage :=
  [fetch, decode, readOperands, execute, memoryAccess, writeBack]

/-- The stage's name in traces and errors. -/
def title : Stage → String
  | fetch => "Fetch"
  | decode => "Decode"
  | readOperands => "Read-Operands"
  | execute => "Execute"
  | memoryAccess => "Memory-Access"
  | writeBack => "Write-Back"

/-- The stage's name in documents. -/
def name : Stage → String
  | fetch => "fetch"
  | decode => "decode"
  | readOperands => "read_operands"
  | execute => "execute"
  | memoryAccess => "memory_access"
  | writeBack => "write_back"

end Stage

/-- A fetched instruction. -/
structure Fetched where
  /-- The address of the instruction that follows. -/
  npc : Address
  instruction : Instruction
  /-- Whether no instruction was placed here, so that an `exit` runs in its stead. -/
  implicit : Bool
  deriving DecidableEq

/-- The signals of an instruction. -/
structure Decoded where
  opcode : Opcode
  signals : ControlSignals
  deriving DecidableEq

/-- A register and the value read from it. -/
structure RegisterRead where
  reg : Reg
  value : Word
  deriving DecidableEq

/-- The operands of an instruction. -/
structure OperandsRead where
  rs : RegisterRead
  /-- The second source; it is not read when it is the destination. -/
  rt : Option RegisterRead
  imm : Option Word
  deriving DecidableEq

/-- A computation of the ALU, and the candidate target of a jump or branch. -/
structure Executed where
  src1 : Word
  src2 : Word
  op : AluOp
  result : Word
  target : Option Address
  deriving DecidableEq

/-- An access to data memory. -/
inductive MemoryAccess where
  | load (address value : Word)
  | store (address value : Word)
  deriving DecidableEq

/-- The outcome of a branch, the next instruction and the access to data memory. -/
structure Accessed where
  /-- Whether the branch was taken, for branches. -/
  taken : Option Bool
  nextPc : Address
  access : Option MemoryAccess
  deriving DecidableEq

/-- The end of an instruction. -/
inductive WrittenBack where
  /-- The run ends. -/
  | terminal
  /-- No register is written. -/
  | nothing
  /-- A value is offered to a register, which takes it unless it is `r0`. -/
  | write (reg : Reg) (value : Word) (committed : Bool)
  deriving DecidableEq

/-- What one stage did. -/
inductive StageReport where
  | fetch (fetched : Fetched)
  | decode (decoded : Decoded)
  | readOperands (read : OperandsRead)
  | execute (executed : Executed)
  | memoryAccess (accessed : Accessed)
  | writeBack (written : WrittenBack)
  deriving DecidableEq

/-- The stage that a report comes from. -/
def StageReport.stage : StageReport → Stage
  | fetch _ => .fetch
  | decode _ => .decode
  | readOperands _ => .readOperands
  | execute _ => .execute
  | memoryAccess _ => .memoryAccess
  | writeBack _ => .writeBack

/-- A report in the trace, with the number of its instruction, from 1, and that instruction's
address. -/
structure TraceBlock where
  step : Nat
  pc : Address
  report : StageReport
  deriving DecidableEq

end TinyMips
