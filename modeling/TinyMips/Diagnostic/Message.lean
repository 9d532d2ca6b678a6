import TinyMips.Address.Region
import TinyMips.Isa.Opcode

/-!
# Messages

Everything that an assembly or a run reports without stopping, by cause. The wording is in one
place, `Message.text`.
-/

namespace TinyMips

/-- The causes of errors and warnings. -/
inductive Message where
  /-- A label's name is not well formed. -/
  | labelNotValid (name : String)
  /-- A label has a definition already. -/
  | labelAlreadyDefined (name : String)
  /-- A label's item did not fit in its store. -/
  | labelDropped (name : String)
  /-- No item follows a label. -/
  | labelNotFollowed (name : String)
  /-- A reference names no defined label. -/
  | labelNotFound (name : String)
  /-- A reference names a label whose address the instruction cannot use. -/
  | labelAddress (name : String) (error : AddressError)
  /-- A reference names a label too far away for a branch. -/
  | labelOffset (name : String) (offset : Word)
  /-- A directive is not known. -/
  | directiveNotRecognised (keyword : String)
  /-- A `.word` directive has no value. -/
  | wordValueMissing
  /-- A `.word` directive repeats its value a number of times that is not a positive literal. -/
  | repeatCountNotValid (count : String)
  /-- A mnemonic is not known. -/
  | opcodeNotRecognised (name : String)
  /-- An instruction has another number of operands than its format. -/
  | operandCount (expected found : Nat)
  /-- The operands of an instruction were refused; the reasons stand before it. -/
  | operandsNotValid (text : String) (opcode : Opcode)
  /-- A token names no register. -/
  | registerNotRecognised (token : String)
  /-- The destination of an instruction is `r0`. -/
  | registerHardwired (token : String)
  /-- A token is no integer literal. -/
  | immediateNotRecognised (token : String)
  /-- A literal does not fit its field. -/
  | immediateOutOfRange (token : String) (low high : Int)
  /-- A literal address is not a supported one. -/
  | addressNotSupported (token : String) (error : AddressError)
  /-- A token is no label. -/
  | labelNotRecognised (token : String)
  /-- A memory operand lacks its closing parenthesis. -/
  | memoryOperandNotRecognised (token : String)
  /-- The data store is full. -/
  | dataFull
  /-- The instruction store is full. -/
  | textFull (keyword : String)
  /-- A run wrote to `r0`. -/
  | writeDiscarded (value : Word)
  /-- A run went past the last placed instruction. -/
  | implicitExit (address : Address)
  /-- A message that a caller words. -/
  | note (text : String)
  deriving DecidableEq

/-- The wording of a message. -/
def Message.text : Message → String
  | labelNotValid name => s!"Label: \"{name}\" Not Valid!"
  | labelAlreadyDefined name => s!"Label: \"{name}\" Already Defined!"
  | labelDropped name => s!"Label: \"{name}\" dropped, its item did not fit in storage"
  | labelNotFollowed name => s!"Label: \"{name}\" is not followed by any instruction or data"
  | labelNotFound name => s!"Label: \"{name}\" Not Found!"
  | labelAddress name error => s!"Label: \"{name}\" {error.message}"
  | labelOffset name offset =>
    s!"Label: \"{name}\" branch offset {offset.toInt} Out Of Range [-32768, 32767]!"
  | directiveNotRecognised keyword => s!"Directive: \"{keyword}\" Not Recognised!"
  | wordValueMissing => "Directive: \".word\" requires at least one value"
  | repeatCountNotValid count => s!"Directive: repeat count \"{count}\" Not Valid!"
  | opcodeNotRecognised name => s!"Opcode: \"{name}\" Not Recognised!"
  | operandCount expected found => s!"Operands: expected {expected}, found {found}"
  | operandsNotValid text opcode =>
    s!"Operands: \"{text}\" Not Valid For \"{opcode.mnemonic}\"!"
  | registerNotRecognised token => s!"Register: \"{token}\" Not Recognised!"
  | registerHardwired token =>
    s!"Register: \"{token}\" is hardwired to zero, writes will be discarded"
  | immediateNotRecognised token => s!"Immediate: \"{token}\" Not Recognised!"
  | immediateOutOfRange token low high =>
    s!"Immediate: \"{token}\" Out Of Range [{low}, {high}]!"
  | addressNotSupported token error => s!"Address: \"{token}\" {error.message}"
  | labelNotRecognised token => s!"Label: \"{token}\" Not Recognised!"
  | memoryOperandNotRecognised token => s!"Memory Operand: \"{token}\" Not Recognised!"
  | dataFull =>
    s!"Data: storage full ({Region.data.capacity} double words), remaining values dropped"
  | textFull keyword =>
    s!"Instruction: storage full ({Region.text.capacity} instructions), \"{keyword}\" dropped"
  | writeDiscarded value =>
    s!"Register: r0 is hardwired to zero, write of {value.toInt} ignored"
  | implicitExit address =>
    s!"Fetch: no instruction placed at {address.text}, executing implicit exit"
  | note text => text

end TinyMips
