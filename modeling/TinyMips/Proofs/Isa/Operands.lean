import TinyMips.Isa.Instruction
import TinyMips.Proofs.Address.Region

/-!
# Operands that fit their opcode

`Operands.Fits` is the shape that an opcode's format asks for. `Operands.Accepted` has one
constructor for each form that source text can give, labels included, with the bounds of its
literal; linking turns its label forms into its literal forms.
-/

namespace TinyMips

/-! ## The opcodes of a format -/

namespace Opcode

variable {op : Opcode}

theorem format_eq_none_iff : op.format = .none ↔ op = .exit ∨ op = .halt ∨ op = .nop := by
  cases op <;> simp [format]

theorem format_eq_register_iff : op.format = .register ↔ op = .add ∨ op = .sub := by
  cases op <;> simp [format]

theorem format_eq_immediateArith_iff : op.format = .immediateArith ↔ op = .addi := by
  cases op <;> simp [format]

theorem format_eq_memory_iff : op.format = .memory ↔ op = .lw ∨ op = .sw := by
  cases op <;> simp [format]

theorem format_eq_jump_iff : op.format = .jump ↔ op = .j ∨ op = .jal := by
  cases op <;> simp [format]

end Opcode

/-! ## Shapes and forms -/

namespace Operands

/-- Whether operands have the shape of an opcode's format. Word addresses are for loads and stores
only. -/
def Fits (op : Opcode) : Operands → Prop
  | none => op.format = .none
  | register .. => op.format = .register
  | immediate _ _ _ .plain =>
    op.format = .immediateArith ∨ op.format = .memory ∨ op.format = .branch
  | immediate _ _ _ .wordAddress => op.format = .memory
  | jump _ => op.format = .jump

instance (op : Opcode) (operands : Operands) : Decidable (operands.Fits op) := by
  unfold Fits
  split <;> infer_instance

/-- The operands that mean something to an opcode: they have its shape and no label is left. -/
inductive Linked (op : Opcode) : Operands → Prop where
  | none (format : op.format = .none) : Linked op .none
  | register (rs rt rd : Reg) (format : op.format = .register) : Linked op (.register rs rt rd)
  | arithmetic (rs rt : Reg) (value : Word) (format : op.format = .immediateArith) :
    Linked op (.immediate rs rt (.literal value) .plain)
  | memory (rs rt : Reg) (value : Word) (mode : ImmediateMode) (format : op.format = .memory) :
    Linked op (.immediate rs rt (.literal value) mode)
  | branch (rs rt : Reg) (value : Word) (format : op.format = .branch) :
    Linked op (.immediate rs rt (.literal value) .plain)
  | jump (value : Word) (format : op.format = .jump) : Linked op (.jump (.literal value))

/-- The label that stands among operands. -/
def label? (operands : Operands) : Option String :=
  operands.immediate?.bind Immediate.label?

/-- Operands of the right shape without a label mean something. -/
theorem Fits.linked {op : Opcode} {operands : Operands} (fits : operands.Fits op)
    (unlabelled : operands.label? = Option.none) : operands.Linked op := by
  cases operands with
  | none => exact .none fits
  | register rs rt rd => exact .register rs rt rd fits
  | jump target =>
    cases target with
    | label name => exact absurd unlabelled nofun
    | literal value => exact .jump value fits
  | immediate rs rt imm mode =>
    cases imm with
    | label name => exact absurd unlabelled nofun
    | literal value =>
      cases mode with
      | wordAddress => exact .memory rs rt value .wordAddress fits
      | plain =>
        rcases fits with format | format | format
        · exact .arithmetic rs rt value format
        · exact .memory rs rt value .plain format
        · exact .branch rs rt value format

/-- The operands that source text can give an opcode. -/
inductive Accepted (op : Opcode) : Operands → Prop where
  | none (format : op.format = .none) : Accepted op .none
  | register (rs rt rd : Reg) (format : op.format = .register) :
    Accepted op (.register rs rt rd)
  | arithmetic (rs rt : Reg) (value : Word) (format : op.format = .immediateArith)
    (fits : value.fits16 = true) : Accepted op (.immediate rs rt (.literal value) .plain)
  | offset (rs rt : Reg) (value : Word) (format : op.format = .memory)
    (fits : value.fits16 = true) : Accepted op (.immediate rs rt (.literal value) .plain)
  | dataAddress (rt : Reg) (value : Word) (format : op.format = .memory)
    (low : 0 ≤ value.toInt) (high : value.toInt ≤ 2 ^ 61 - 1)
    (supported : Region.data.Supports value.toBytes.toInt) :
    Accepted op (.immediate .zero rt (.literal value) .wordAddress)
  | dataLabel (rt : Reg) (name : String) (format : op.format = .memory) :
    Accepted op (.immediate .zero rt (.label name) .wordAddress)
  | distance (rs rt : Reg) (value : Word) (format : op.format = .branch)
    (fits : value.fits16 = true) : Accepted op (.immediate rs rt (.literal value) .plain)
  | branchLabel (rs rt : Reg) (name : String) (format : op.format = .branch) :
    Accepted op (.immediate rs rt (.label name) .plain)
  | target (value : Word) (format : op.format = .jump) (low : 0 ≤ value.toInt)
    (high : value.toInt ≤ 2 ^ 26 - 1) (supported : Region.text.Supports value.toBytes.toInt) :
    Accepted op (.jump (.literal value))
  | jumpLabel (name : String) (format : op.format = .jump) : Accepted op (.jump (.label name))

/-- Accepted operands have the shape of their opcode. -/
theorem Accepted.fits {op : Opcode} {operands : Operands} (h : operands.Accepted op) :
    operands.Fits op := by
  cases h <;> simp_all [Fits]

end Operands

end TinyMips
