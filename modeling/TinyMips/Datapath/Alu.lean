import TinyMips.Address.Word
import TinyMips.Datapath.Signals

/-!
# The arithmetic logic unit

Two sub-units, arithmetic and logic, each of which answers zero to the functions of the other.
Arithmetic wraps; comparisons are signed.
-/

namespace TinyMips.Alu

/-- The answer of a comparison. -/
def flag (holds : Bool) : Word :=
  if holds then 1 else 0

/-- The arithmetic sub-unit. -/
def arithmetic (op : AluOp) (a b : Word) : Word :=
  match op with
  | .add => a + b
  | .sub => a - b
  | _ => 0

/-- The logic and comparison sub-unit. -/
def logic (op : AluOp) (a b : Word) : Word :=
  match op with
  | .xor => a ^^^ b
  | .slt => flag (a < b)
  | .sle => flag (a ≤ b)
  | _ => 0

/-- The result of a function. -/
def execute (op : AluOp) (a b : Word) : Word :=
  match op with
  | .add | .sub => arithmetic op a b
  | .xor | .slt | .sle => logic op a b
  | .pass => a

end TinyMips.Alu
