import TinyMips.Proofs.Assembly.Reference

/-!
# How memory operands are written

The operand of a load or a store is written bare, as a label or a literal address, or as
`offset(base)`. Which of the two it is decides what stands in the program for it:

* **bare** — a word address without a base, whose bytes are a supported data address;
* **based** — a 16-bit offset from the base, which is `r0` when it is left out.

`Program.addressing_of_get?` reads this off the line that wrote an instruction, and
`Program.supports_of_bare` off the operands that were linked for it.
-/

namespace TinyMips

/-- How the operand of a load or a store is written. -/
inductive Addressing where
  /-- A label or a literal address. -/
  | bare
  /-- `offset(base)`, with the text of its base. -/
  | based (base : List Char)
  deriving DecidableEq

namespace Addressing

/-- How a memory operand is written. -/
def ofToken (token : List Char) : Addressing :=
  match Text.cut? (· = '(') token with
  | some (_, after) => .based (Text.trim after.dropLast)
  | none => .bare

/-- Whether the base is `r0`, left out or named. -/
def IsZeroBased : Addressing → Prop
  | bare => False
  | based base => base = [] ∨ Reg.ofToken? base = some .zero

end Addressing

/-- How a line writes its memory operand, which is the second of two. -/
def SourceLine.addressing? (line : SourceLine) : Option Addressing :=
  match Operand.pieces line.operands.toList with
  | [_, address] => some (.ofToken address)
  | _ => none

/-- The operands that stand for a memory operand that is written one way or the other. -/
inductive Operands.AddressedAs : Addressing → Operands → Prop where
  | bare (rt : Reg) (imm : Immediate) : AddressedAs .bare (.immediate .zero rt imm .wordAddress)
  | based (base : List Char) (rs rt : Reg) (offset : Word) (fits : offset.fits16 = true)
    (zero : (Addressing.based base).IsZeroBased → rs = .zero) :
    AddressedAs (.based base) (.immediate rs rt (.literal offset) .plain)

namespace Operand

/-- A memory operand stands for what it is written as. -/
theorem AddressText.addressedAs {token : List Char} {rs : Reg} {imm : Immediate}
    {mode : ImmediateMode} (address : AddressText token rs imm mode) (rt : Reg) :
    (Operands.immediate rs rt imm mode).AddressedAs (.ofToken token) := by
  unfold Addressing.ofToken
  cases address with
  | @based before between value base written first offset named =>
    have plain := Text.decide_eq_false_of_not_mem first
    rw [written, Text.cut?_append_cons plain (decide_eq_true rfl)]
    dsimp only
    rw [List.dropLast_concat]
    refine .based _ rs rt value (Word.fits16_iff.mpr (bounds_of_offset offset)) fun zero => ?_
    rcases named with ⟨-, rfl⟩ | named
    · rfl
    · rcases zero with empty | zero
      · rw [empty] at named
        contradiction
      · exact Option.some.inj (named.symm.trans zero)
  | bare single =>
    rw [Text.cut?_of_plain (Text.decide_eq_false_of_not_mem single)]
    exact .bare rt imm

/-- The operands of a load or a store are two, and the second one is accepted for what it is
written as. -/
theorem addressedAs_of_check {op : Opcode} (format : op.format = .memory) {text : List Char}
    {bundle : OperandBundle} (h : (check op text).value? = some bundle) :
    ∃ rt address, pieces text = [rt, address] ∧
      bundle.operands.AddressedAs (.ofToken address) := by
  obtain ⟨-, spelled⟩ := value?_check_iff.mp h
  generalize pieces text = tokens at spelled ⊢
  generalize bundle.operands = operands at spelled ⊢
  cases spelled with
  | @memory register address rt _ _ _ _ _ addresses =>
    exact ⟨register, address, rfl, addresses.addressedAs rt⟩
  | none other | register other | arithmetic other | branch other | jump other =>
    rw [format] at other
    contradiction

end Operand

/-- A load or a store that a line adds has the operands that the line was written for. -/
theorem SourceLine.addressing_of_instruction? {line : SourceLine} {inst : Instruction}
    (h : line.instruction? = some inst) (format : inst.opcode.format = .memory) :
    ∃ addressing, line.addressing? = some addressing ∧ inst.operands.AddressedAs addressing := by
  obtain ⟨mnemonic, bundle, -, -, -, accepted, made⟩ := check_of_instruction? h
  obtain ⟨rt, address, two, addressed⟩ := Operand.addressedAs_of_check format accepted
  refine ⟨.ofToken address, ?_, ?_⟩
  · unfold addressing?
    rw [two]
  · rw [made]
    exact addressed

namespace Instruction

variable {inst : Instruction} {labels : LabelTable} {addressing : Addressing}

/-- Linking fills in the address of a bare operand and leaves a based one as it is. -/
theorem addressedAs_link (h : inst.operands.AddressedAs addressing)
    (clean : inst.linkError? labels = none) :
    (inst.link labels).operands.AddressedAs addressing := by
  cases unlabelled : inst.label? with
  | none =>
    rw [link_of_unlabelled unlabelled]
    exact h
  | some name =>
    obtain ⟨value, -, eq⟩ := link_of_label unlabelled clean
    rw [eq]
    obtain ⟨op, operands, line, address, assembled⟩ := inst
    cases h with
    | bare rt imm => exact .bare rt (.literal value)
    | based base rs rt offset fits zero => contradiction

end Instruction

namespace Program

variable {lines : List SourceLine} {program : Program} {index : Nat} {inst : Instruction}

/-- Every instruction of a program was added by a line, whose number it carries. -/
theorem line_of_get? (h : ofLines lines = .ok program)
    (found : program.text.get? index = some inst) :
    ∃ line ∈ lines, ∃ written, line.instruction? = some written ∧
      (written.layAt index).linkError? program.labels = none ∧
      inst.line = some line.number ∧ inst = written.assembleAt index program.labels := by
  obtain ⟨written, placed, clean, rfl⟩ := written_of_get? h found
  obtain ⟨line, mem, wrote⟩ := SourceLine.exists_line_of_placed placed
  refine ⟨line, mem, written, wrote, clean, ?_, rfl⟩
  rw [Instruction.line_assembleAt]
  exact (SourceLine.accepted_of_instruction? wrote).2

/-- A load or a store of a program has the operands that its line was written for. -/
theorem addressing_of_get? (h : ofLines lines = .ok program)
    (found : program.text.get? index = some inst) (format : inst.opcode.format = .memory) :
    ∃ line ∈ lines, inst.line = some line.number ∧
      ∃ addressing, line.addressing? = some addressing ∧
        inst.operands.AddressedAs addressing := by
  obtain ⟨line, mem, written, wrote, clean, origin, made⟩ := line_of_get? h found
  have opcode : inst.opcode = written.opcode := by
    rw [made, Instruction.opcode_assembleAt]
  rw [opcode] at format
  obtain ⟨addressing, reads, addressed⟩ := SourceLine.addressing_of_instruction? wrote format
  refine ⟨line, mem, origin, addressing, reads, ?_⟩
  rw [made, Instruction.operands_assembleAt]
  exact Instruction.addressedAs_link addressed clean

/-- `addressing_of_get?` for the line that is known by its number. -/
theorem addressedAs_of_line (ordered : lines.Pairwise fun a b => a.number < b.number)
    (h : ofLines lines = .ok program) (found : program.text.get? index = some inst)
    (format : inst.opcode.format = .memory) {line : SourceLine} (mem : line ∈ lines)
    (origin : inst.line = some line.number) {addressing : Addressing}
    (reads : line.addressing? = some addressing) : inst.operands.AddressedAs addressing := by
  obtain ⟨other, within, same, written, known, addressed⟩ := addressing_of_get? h found format
  obtain rfl := SourceLine.eq_of_number_eq ordered within mem
    (Option.some.inj (same.symm.trans origin))
  obtain rfl := Option.some.inj (known.symm.trans reads)
  exact addressed

/-- The word address of a bare operand stands for a supported data address. -/
theorem supports_of_bare (h : ofLines lines = .ok program)
    (found : program.text.get? index = some inst) (bare : inst.operands.AddressedAs .bare) :
    ∃ rt value, inst.operands = .immediate .zero rt (.literal value) .wordAddress ∧
      Region.data.Supports value.toBytes.toInt := by
  obtain ⟨accepted, unlabelled⟩ := accepted_of_get? h found
  generalize inst.operands = operands at *
  cases bare with
  | bare rt imm =>
    cases accepted with
    | dataAddress _ value _ _ _ supported => exact ⟨rt, value, rfl, supported⟩
    | dataLabel => contradiction

end Program

end TinyMips
