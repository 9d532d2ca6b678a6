import TinyMips.Assembly.Line
import TinyMips.Assembly.Operand

/-!
# Items

What a line of source asks to be placed, read without regard to any other line. A mnemonic asks
for an instruction and `.word` for data; even when such a line is refused, its region is known, so
that its labels can still be given the address that the item would have had.
-/

namespace TinyMips

/-- Something to be placed in a region. -/
inductive Item where
  | instruction (opcode : Opcode) (operands : Operands)
  | words (values : List Word)
  deriving DecidableEq

/-- What a keyword asks for: nothing, or an item of a region, which may have been refused. -/
inductive Request where
  /-- Nothing is placed; the directive may be unknown. -/
  | nothing (errors : List Message)
  /-- An item is to be placed in a region. -/
  | item (region : Region) (checked : Checked Item)

namespace Request

/-- A literal among the operands of `.word`. -/
def wordValue (token : List Char) : Checked Word :=
  .ofOption (Numeral.literal? token) (.immediateNotRecognised (String.ofList token))

/-- The number of repetitions in `value:count`, at least one. More than the data region holds is
cut down to one too many. -/
def repeatCount (token : List Char) : Checked Nat :=
  match Numeral.literal? token with
  | some count =>
    if 1 ≤ count.toInt then .accept (min count.toInt.toNat (Region.data.capacity + 1))
    else .reject (.repeatCountNotValid (String.ofList token))
  | none => .reject (.repeatCountNotValid (String.ofList token))

/-- The operands of `.word`: one value and its number of repetitions around a colon, or a list of
values between commas. -/
def wordValues (operands : List Char) : Checked (List Word) :=
  let text := Text.trim operands
  if text.isEmpty then .reject .wordValueMissing
  else match Text.cut? (· = ':') text with
    | some (value, count) =>
      (fun value count => List.replicate count value) <$> wordValue (Text.trim value) <*>
        repeatCount (Text.trim count)
    | none => .all ((text.splitOn ',').map fun token => wordValue (Text.trim token))

/-- What a directive asks for. The section directives are accepted and change nothing. -/
def ofDirective (keyword : String) (operands : List Char) : Request :=
  if keyword = ".word" then .item .data (.words <$> wordValues operands)
  else if keyword = ".data" ∨ keyword = ".text" ∨ keyword = ".code" then .nothing []
  else .nothing [.directiveNotRecognised keyword]

/-- The instruction of a mnemonic and its operands. -/
def instruction (mnemonic : String) (operands : List Char) : Checked Item :=
  match Opcode.ofName? mnemonic.toList with
  | some op => (fun bundle => .instruction op bundle.operands) <$> Operand.check op operands
  | none => .reject (.opcodeNotRecognised mnemonic)

/-- What a line asks for. -/
def ofLine (line : SourceLine) : Request :=
  match line.keyword with
  | none => .nothing []
  | some keyword =>
    if keyword.toList.head? = some '.' then ofDirective keyword line.operands.toList
    else .item .text (instruction keyword line.operands.toList)

end Request

end TinyMips
