import TinyMips.Assembly.Checked
import TinyMips.Assembly.Label
import TinyMips.Isa.Instruction
import TinyMips.Numeral.Literal

/-!
# Operand grammar

What each operand format accepts. The operand text is cut at its commas; every piece is checked,
also after another was refused, so that a line reports all its faults at once. A refused line ends
with one summary of the whole text.
-/

namespace TinyMips.Operand

/-! ## Single operands -/

/-- The pieces of an operand text between commas, each trimmed. Blank text has none. -/
def pieces (text : List Char) : List (List Char) :=
  if (Text.trim text).isEmpty then [] else (text.splitOn ',').map Text.trim

/-- A register that the instruction reads. -/
def readRegister (token : List Char) : Checked Reg :=
  .ofOption (Reg.ofToken? token) (.registerNotRecognised (String.ofList token))

/-- A register that the instruction writes; writing `r0` is allowed with a warning. -/
def writeRegister (token : List Char) : Checked Reg :=
  let checked := readRegister token
  if Reg.ofToken? token = some .zero then
    { checked with warnings := [.registerHardwired (String.ofList token)] }
  else checked

/-- A signed 16-bit literal. -/
def signed16 (token : List Char) : Checked Word :=
  match Numeral.literal? token with
  | none => .reject (.immediateNotRecognised (String.ofList token))
  | some value =>
    if value.fits16 then .accept value
    else .reject (.immediateOutOfRange (String.ofList token) (-32768) 32767)

/-- A literal word immediate, not above the given one, whose byte address is supported in a
region. -/
def wordAddress (region : Region) (high : Nat) (token : List Char) : Checked Word :=
  match Numeral.literal? token with
  | none => .reject (.immediateNotRecognised (String.ofList token))
  | some value =>
    if 0 ≤ value.toInt ∧ value.toInt ≤ high then
      match region.check value.toBytes.toUInt64 with
      | .ok _ => .accept value
      | .error error => .reject (.addressNotSupported (String.ofList token) error)
    else .reject (.immediateOutOfRange (String.ofList token) 0 high)

/-- A label, in any letter case. -/
def label (token : List Char) : Checked String :=
  let name := Text.lower token
  if Label.isValid name then .accept (String.ofList name)
  else .reject (.labelNotRecognised (String.ofList token))

/-- A literal where the token is meant as a number, otherwise a label. -/
def literalOrLabel (literal : List Char → Checked Word) (token : List Char) : Checked Immediate :=
  if Numeral.looksNumeric token then .literal <$> literal token else .label <$> label token

/-! ## Memory operands -/

/-- The operand of a load or a store: a base register, an immediate and its mode. -/
abbrev MemoryOperand := Reg × Immediate × ImmediateMode

/-- `offset(base)`; a missing offset is zero and a missing base is `r0`. The texts are those before
and after the first opening parenthesis. -/
def baseOffset (token before after : List Char) : Checked MemoryOperand :=
  if after.getLast? = some ')' then
    let offsetText := Text.trim before
    let baseText := Text.trim after.dropLast
    let offset := if offsetText.isEmpty then .accept 0 else signed16 offsetText
    let base := if baseText.isEmpty then .accept .zero else readRegister baseText
    (fun offset base => (base, .literal offset, .plain)) <$> offset <*> base
  else .reject (.memoryOperandNotRecognised (String.ofList token))

/-- `offset(base)`, or a data address given as a literal word immediate or a label. -/
def memoryOperand (token : List Char) : Checked MemoryOperand :=
  match Text.cut? (· = '(') token with
  | some (before, after) => baseOffset token before after
  | none =>
    (fun imm => (.zero, imm, .wordAddress)) <$>
      literalOrLabel (wordAddress .data 0x1FFFFFFFFFFFFFFF) token

/-! ## Whole operand texts -/

/-- The operands of a format, from the pieces of the operand text. -/
def ofPieces (op : Opcode) (tokens : List (List Char)) : Checked Operands :=
  match op.format, tokens with
  | .none, [] => .accept .none
  | .none, _ => .reject (.operandCount 0 tokens.length)
  | .register, [rd, rs, rt] =>
    (fun rd rs rt => .register rs rt rd) <$> writeRegister rd <*> readRegister rs <*>
      readRegister rt
  | .register, _ => .reject (.operandCount 3 tokens.length)
  | .immediateArith, [rt, rs, imm] =>
    (fun rt rs imm => .immediate rs rt (.literal imm) .plain) <$> writeRegister rt <*>
      readRegister rs <*> signed16 imm
  | .immediateArith, _ => .reject (.operandCount 3 tokens.length)
  | .memory, [rt, address] =>
    -- a load writes its register and a store reads it
    let target := if op.formatClass = .immediateWrite then writeRegister rt else readRegister rt
    (fun rt (rs, imm, mode) => .immediate rs rt imm mode) <$> target <*> memoryOperand address
  | .memory, _ => .reject (.operandCount 2 tokens.length)
  | .branch, [rs, rt, destination] =>
    (fun rs rt imm => .immediate rs rt imm .plain) <$> readRegister rs <*> readRegister rt <*>
      literalOrLabel signed16 destination
  | .branch, _ => .reject (.operandCount 3 tokens.length)
  | .jump, [destination] =>
    .jump <$> literalOrLabel (wordAddress .text 0x3FFFFFF) destination
  | .jump, _ => .reject (.operandCount 1 tokens.length)

/-- The operands that a text gives an opcode. -/
def check (op : Opcode) (text : List Char) : Checked OperandBundle :=
  (OperandBundle.mk op.formatClass <$> ofPieces op (pieces text)).withSummary
    (.operandsNotValid (String.ofList (Text.trim text)) op)

end TinyMips.Operand
