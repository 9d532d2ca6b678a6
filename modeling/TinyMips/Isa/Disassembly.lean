import TinyMips.Isa.Instruction

/-!
# Disassembly

The canonical text of an instruction: registers as `r` and their index, plain immediates in
decimal, word addresses and jump targets as byte addresses.
-/

namespace TinyMips

/-- The name of a register in disassembly. -/
def Reg.text (r : Reg) : String :=
  "r" ++ String.ofList (Numeral.decimal r.val)

/-- The text of a word in decimal. -/
def Word.text (value : Word) : String :=
  String.ofList (Numeral.decimal value.toInt)

/-- The text of an immediate. -/
def Immediate.text : Immediate → ImmediateMode → String
  | label name, _ => name
  | literal value, .plain => value.text
  | literal value, .wordAddress => value.toBytes.addressText

namespace Instruction

/-- The mnemonic and its operands, separated by commas. -/
def textOf (op : Opcode) (operands : List String) : String :=
  op.mnemonic ++ " " ++ ", ".intercalate operands

/-- The canonical text of an instruction. The order of the operands follows the opcode's format
where the shape alone does not fix it. -/
def disassemble (inst : Instruction) : String :=
  let op := inst.opcode
  match inst.operands with
  | .none => op.mnemonic
  | .register rs rt rd => textOf op [rd.text, rs.text, rt.text]
  | .immediate rs rt imm mode =>
    match op.format, mode with
    | .memory, .wordAddress => textOf op [rt.text, imm.text mode]
    | .memory, .plain => textOf op [rt.text, imm.text mode ++ "(" ++ rs.text ++ ")"]
    | .branch, _ => textOf op [rs.text, rt.text, imm.text mode]
    | _, _ => textOf op [rt.text, rs.text, imm.text mode]
  | .jump target => textOf op [target.text .wordAddress]

end Instruction

end TinyMips
