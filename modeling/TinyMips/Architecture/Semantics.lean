import TinyMips.Architecture.State

/-!
# What instructions mean

The meaning of each instruction, in one step and without a datapath: sums and differences wrap,
comparisons are those of the integers, an access to data must use a supported address, and
everything that is not mentioned stays as it is.
-/

namespace TinyMips

/-- The conditions of the six branches, on the integers that the registers hold. -/
def Opcode.condition (op : Opcode) (a b : Int) : Bool :=
  match op with
  | .beq => a == b
  | .bne => a != b
  | .blt => a < b
  | .bge => b ≤ a
  | .bgt => b < a
  | .ble => a ≤ b
  | _ => false

/-- The offset of a data access in bytes. -/
def ImmediateMode.offset (mode : ImmediateMode) (imm : Word) : Word :=
  match mode with
  | .plain => imm
  | .wordAddress => imm * 4

namespace Architecture

/-- Goes on at the branch target if the condition holds of two registers, else at the next
instruction. -/
def branch (state : Architecture) (npc : Address) (op : Opcode) (rs rt : Reg) (imm : Word) :
    Architecture :=
  if op.condition (state.read rs).toInt (state.read rt).toInt then
    state.goTo (npc + (imm * 4).toUInt64)
  else state.goTo npc

/-- The state after an instruction with linked operands of its format, where the next instruction
is at `npc`. Operands that are not linked or have another shape mean nothing. -/
def perform (state : Architecture) (npc : Address) (op : Opcode) (operands : Operands) :
    Option (Except AddressError Architecture) :=
  let next := state.goTo npc
  match op, operands with
  | .add, .register rs rt rd => some (.ok (next.assign rd (state.read rs + state.read rt)))
  | .sub, .register rs rt rd => some (.ok (next.assign rd (state.read rs - state.read rt)))
  | .addi, .immediate rs rt (.literal imm) .plain =>
    some (.ok (next.assign rt (state.read rs + imm)))
  | .lw, .immediate rs rt (.literal imm) mode =>
    some ((state.data.load (state.read rs + mode.offset imm)).map fun value =>
      next.assign rt value)
  | .sw, .immediate rs rt (.literal imm) mode =>
    some ((state.data.store (state.read rs + mode.offset imm) (state.read rt)).map fun data =>
      { next with data })
  | .beq, .immediate rs rt (.literal imm) .plain => some (.ok (state.branch npc .beq rs rt imm))
  | .bne, .immediate rs rt (.literal imm) .plain => some (.ok (state.branch npc .bne rs rt imm))
  | .blt, .immediate rs rt (.literal imm) .plain => some (.ok (state.branch npc .blt rs rt imm))
  | .bge, .immediate rs rt (.literal imm) .plain => some (.ok (state.branch npc .bge rs rt imm))
  | .bgt, .immediate rs rt (.literal imm) .plain => some (.ok (state.branch npc .bgt rs rt imm))
  | .ble, .immediate rs rt (.literal imm) .plain => some (.ok (state.branch npc .ble rs rt imm))
  | .j, .jump (.literal target) => some (.ok (state.goTo (target * 4).toUInt64))
  | .jal, .jump (.literal target) =>
    some (.ok ((state.goTo (target * 4).toUInt64).assign .link npc.toInt64))
  | .nop, .none => some (.ok next)
  | .exit, .none | .halt, .none => some (.ok { state with pc := none })
  | _, _ => none

/-- The state after the instruction at a supported address, or after the `exit` that runs where no
instruction was placed. -/
def performAt (state : Architecture) (text : TextStore) (pc : Address) (index : Nat) :
    Option (Except AddressError Architecture) :=
  match text.get? index with
  | some inst => state.perform (pc + 4) inst.opcode inst.operands
  | none => some (.ok { state with pc := none })

end Architecture

end TinyMips
