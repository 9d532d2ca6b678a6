import TinyMips.Address.Region
import TinyMips.Isa.Opcode
import TinyMips.Register.Name

/-!
# Instructions

An instruction pairs an opcode with operands. An immediate that names a label stays a label until
linking replaces it, so an unlinked reference is never mistaken for a value.
-/

namespace TinyMips

/-- An immediate field: a value, or the label that will supply one. -/
inductive Immediate where
  | literal (value : Word)
  | label (name : String)
  deriving DecidableEq

namespace Immediate

/-- The value, once there is one. -/
def value? : Immediate → Option Word
  | literal value => some value
  | label _ => none

/-- The label that is still waited for. -/
def label? : Immediate → Option String
  | literal _ => none
  | label name => some name

end Immediate

/-- How the datapath reads the immediate of an immediate-format instruction. -/
inductive ImmediateMode where
  /-- As it stands. -/
  | plain
  /-- As the byte address of that many instruction words. -/
  | wordAddress
  deriving DecidableEq

/-- The operands of an instruction, by shape. -/
inductive Operands where
  | none
  | register (rs rt rd : Reg)
  | immediate (rs rt : Reg) (imm : Immediate) (mode : ImmediateMode)
  | jump (target : Immediate)
  deriving DecidableEq

namespace Operands

/-- The immediate field, for the shapes that have one. -/
def immediate? : Operands → Option Immediate
  | immediate _ _ imm _ => some imm
  | jump target => some target
  | none | register .. => Option.none

/-- The operands with another immediate; shapes without one stay as they are. -/
def withImmediate (operands : Operands) (imm : Immediate) : Operands :=
  match operands with
  | immediate rs rt _ mode => immediate rs rt imm mode
  | jump _ => jump imm
  | none => none
  | register rs rt rd => register rs rt rd

/-- The source registers `rs` and `rt`; shapes without registers read `r0` twice. -/
def sources : Operands → Reg × Reg
  | register rs rt _ | immediate rs rt _ _ => (rs, rt)
  | none | jump _ => (.zero, .zero)

/-- The immediate as the datapath sees it: word addresses of the immediate format are scaled to
bytes, a jump target is not. -/
def operandImmediate? : Operands → Option Word
  | immediate _ _ imm .plain => imm.value?
  | immediate _ _ imm .wordAddress => imm.value?.map Word.toBytes
  | jump target => target.value?
  | none | register .. => Option.none

end Operands

/-- Operands together with the class of the opcode that they were checked for. -/
structure OperandBundle where
  formatClass : FormatClass
  operands : Operands
  deriving DecidableEq

/-- The register that an instruction with this bundle writes, if its class and shape agree on
one. -/
def OperandBundle.destination? (bundle : OperandBundle) : Option Reg :=
  match bundle.formatClass, bundle.operands with
  | .register, .register _ _ rd => some rd
  | .immediateWrite, .immediate _ rt _ _ => some rt
  | .jumpLink, _ => some .link
  | _, _ => none

/-- An instruction. Its address is given by the store that holds it, and `assembled` tells that a
whole assembly succeeded with it. -/
structure Instruction where
  opcode : Opcode
  operands : Operands
  /-- The source line; instructions that no line wrote have none. -/
  line : Option Nat
  address : Address := 0
  assembled : Bool := false
  deriving DecidableEq

namespace Instruction

/-- The `exit` that runs where no instruction was placed. -/
def implicitExit (address : Address) : Instruction :=
  { opcode := .exit, operands := .none, line := none, address, assembled := true }

/-- The label that the instruction still waits for. -/
def label? (inst : Instruction) : Option String :=
  inst.operands.immediate?.bind Immediate.label?

/-- Whether the machine may execute the instruction. -/
def isReady (inst : Instruction) : Bool :=
  inst.assembled && inst.label?.isNone

end Instruction

end TinyMips
