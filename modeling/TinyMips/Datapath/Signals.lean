import TinyMips.Isa.Opcode

/-!
# Control signals

The signals that steer an instruction through the datapath, and the fixed row of signals for each
opcode. Every signal has a name of lower-case words joined by underscores.
-/

namespace TinyMips

/-- The register that receives the result. -/
inductive DestSelect where
  /-- None. -/
  | none
  /-- The `rt` field of the immediate format. -/
  | target
  /-- The `rd` field of the register format. -/
  | dest
  /-- The link register. -/
  | link
  deriving DecidableEq

/-- The first input of the ALU. -/
inductive Src1Select where
  /-- The value of `rs`. -/
  | source1
  /-- The address of the next instruction. -/
  | npc
  deriving DecidableEq

/-- The second input of the ALU. -/
inductive Src2Select where
  /-- The value of `rt`. -/
  | source2
  /-- The immediate. -/
  | immediate
  deriving DecidableEq

/-- The functions of the ALU. -/
inductive AluOp where
  /-- Wrapping addition. -/
  | add
  /-- Wrapping subtraction. -/
  | sub
  /-- Bitwise exclusive or. -/
  | xor
  /-- One if the first input is less as a signed number, else zero. -/
  | slt
  /-- One if the first input is less or equal as a signed number, else zero. -/
  | sle
  /-- The first input. -/
  | pass
  deriving DecidableEq

/-- The access to data memory. -/
inductive MemoryOp where
  | none
  | load
  | store
  deriving DecidableEq

/-- The value that is written back. -/
inductive WriteBackSelect where
  /-- The result of the ALU. -/
  | alu
  /-- The value that was loaded. -/
  | mem
  deriving DecidableEq

/-- How the next instruction is chosen. -/
inductive NextPcSelect where
  /-- The instruction that follows. -/
  | sequential
  /-- The target. -/
  | jump
  /-- The target if the condition holds, else the instruction that follows. -/
  | branch
  deriving DecidableEq

/-- The condition of a branch on the result of the ALU. -/
inductive BranchCondition where
  | none
  | zero
  | nonZero
  deriving DecidableEq

/-- The signal's name. -/
def DestSelect.name : DestSelect → String
  | none => "none"
  | target => "target"
  | dest => "dest"
  | link => "link"

/-- The signal's name. -/
def Src1Select.name : Src1Select → String
  | source1 => "source1"
  | npc => "npc"

/-- The signal's name. -/
def Src2Select.name : Src2Select → String
  | source2 => "source2"
  | immediate => "immediate"

/-- The signal's name. -/
def AluOp.name : AluOp → String
  | add => "add"
  | sub => "sub"
  | xor => "xor"
  | slt => "slt"
  | sle => "sle"
  | pass => "pass"

/-- The signal's name. -/
def MemoryOp.name : MemoryOp → String
  | none => "none"
  | load => "load"
  | store => "store"

/-- The signal's name. -/
def WriteBackSelect.name : WriteBackSelect → String
  | alu => "alu"
  | mem => "mem"

/-- The signal's name. -/
def NextPcSelect.name : NextPcSelect → String
  | sequential => "sequential"
  | jump => "jump"
  | branch => "branch"

/-- The signal's name. -/
def BranchCondition.name : BranchCondition → String
  | none => "none"
  | zero => "zero"
  | nonZero => "non_zero"

/-- The signals of one instruction. Left out, they steer an instruction that does nothing. -/
structure ControlSignals where
  dest : DestSelect := .none
  src1 : Src1Select := .source1
  src2 : Src2Select := .source2
  alu : AluOp := .pass
  mem : MemoryOp := .none
  wb : WriteBackSelect := .alu
  nextPc : NextPcSelect := .sequential
  cond : BranchCondition := .none
  deriving DecidableEq

namespace ControlSignals

/-- The signals of a branch that tests an ALU function. -/
def branch (alu : AluOp) (cond : BranchCondition) : ControlSignals :=
  { alu, nextPc := .branch, cond }

/-- The row of signals of an opcode. -/
def ofOpcode : Opcode → ControlSignals
  | .add => { dest := .dest, alu := .add }
  | .sub => { dest := .dest, alu := .sub }
  | .addi => { dest := .target, src2 := .immediate, alu := .add }
  | .lw => { dest := .target, src2 := .immediate, alu := .add, mem := .load, wb := .mem }
  | .sw => { src2 := .immediate, alu := .add, mem := .store }
  | .beq => branch .sub .zero
  | .bne => branch .sub .nonZero
  | .blt => branch .slt .nonZero
  | .bge => branch .slt .zero
  | .bgt => branch .sle .zero
  | .ble => branch .sle .nonZero
  | .j => { src2 := .immediate, nextPc := .jump }
  | .jal => { dest := .link, src1 := .npc, src2 := .immediate, nextPc := .jump }
  | .exit | .halt | .nop => {}

end ControlSignals

end TinyMips
