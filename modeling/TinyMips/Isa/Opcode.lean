import TinyMips.Text.Blank

/-!
# Opcodes

The sixteen operations of the instruction set. An opcode fixes the shape of its operands
(`OperandFormat`) and which operand field, if any, receives a result (`FormatClass`).
-/

namespace TinyMips

/-- The operations of the instruction set. -/
inductive Opcode where
  | add | sub | addi | lw | sw | beq | bne | blt | bge | bgt | ble | j | jal | exit | halt | nop
  deriving DecidableEq

/-- The operand shapes of source text. -/
inductive OperandFormat where
  /-- No operands. -/
  | none
  /-- Three registers, `rd, rs, rt`. -/
  | register
  /-- Two registers and a literal, `rt, rs, imm`. -/
  | immediateArith
  /-- A register and a memory operand, `rt, offset(rs)` or `rt, label`. -/
  | memory
  /-- Two registers and a destination, `rs, rt, offset` or `rs, rt, label`. -/
  | branch
  /-- A destination alone. -/
  | jump
  deriving DecidableEq

/-- Which operand field an operation writes. -/
inductive FormatClass where
  /-- Nothing is written. -/
  | none
  /-- The `rd` field is written. -/
  | register
  /-- The `rt` field is read. -/
  | immediateRead
  /-- The `rt` field is written. -/
  | immediateWrite
  /-- A jump that writes nothing. -/
  | jump
  /-- A jump that writes the link register. -/
  | jumpLink
  deriving DecidableEq

namespace Opcode

/-- Every opcode, in table order. -/
def all : List Opcode :=
  [add, sub, addi, lw, sw, beq, bne, blt, bge, bgt, ble, j, jal, exit, halt, nop]

/-- The mnemonic in source text. -/
def mnemonic : Opcode → String
  | add => "add"
  | sub => "sub"
  | addi => "addi"
  | lw => "lw"
  | sw => "sw"
  | beq => "beq"
  | bne => "bne"
  | blt => "blt"
  | bge => "bge"
  | bgt => "bgt"
  | ble => "ble"
  | j => "j"
  | jal => "jal"
  | exit => "exit"
  | halt => "halt"
  | nop => "nop"

/-- The shape of the operands. -/
def format : Opcode → OperandFormat
  | add | sub => .register
  | addi => .immediateArith
  | lw | sw => .memory
  | beq | bne | blt | bge | bgt | ble => .branch
  | j | jal => .jump
  | exit | halt | nop => .none

/-- The field that is written. -/
def formatClass : Opcode → FormatClass
  | add | sub => .register
  | addi | lw => .immediateWrite
  | sw | beq | bne | blt | bge | bgt | ble => .immediateRead
  | j => .jump
  | jal => .jumpLink
  | exit | halt | nop => .none

/-- Whether the operation ends the run. -/
def isTerminal : Opcode → Bool
  | exit | halt => true
  | _ => false

/-- The opcode of a mnemonic, in any letter case. -/
def ofName? (name : List Char) : Option Opcode :=
  all.find? fun op => op.mnemonic.toList = Text.lower name

end Opcode

end TinyMips
