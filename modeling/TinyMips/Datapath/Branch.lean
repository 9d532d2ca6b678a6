import TinyMips.Address.Word
import TinyMips.Datapath.Signals

/-!
# The branch unit

Computes the candidate target of a jump or branch, decides whether a branch is taken, and chooses
the next instruction.
-/

namespace TinyMips.BranchUnit

/-- The candidate target: jumps are absolute, branches relative to the next instruction. -/
def target? (select : NextPcSelect) (npc : Address) (imm : Word) : Option Address :=
  match select with
  | .sequential => none
  | .jump => some imm.toBytes.toUInt64
  | .branch => some (npc + imm.toBytes.toUInt64)

/-- Whether a condition holds of the result of the ALU. -/
def taken (cond : BranchCondition) (result : Word) : Bool :=
  match cond with
  | .none => false
  | .zero => result == 0
  | .nonZero => result != 0

/-- The address of the next instruction. -/
def nextPc (select : NextPcSelect) (npc : Address) (target : Option Address) (taken : Bool) :
    Address :=
  match select, target with
  | .jump, some target => target
  | .branch, some target => if taken then target else npc
  | _, _ => npc

end TinyMips.BranchUnit
