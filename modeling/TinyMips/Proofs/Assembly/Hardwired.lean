import TinyMips.Machine.Step
import TinyMips.Proofs.Assembly.Addressing
import TinyMips.Proofs.Assembly.Faults
import TinyMips.Proofs.Assembly.Warnings

/-!
# Instructions that write `r0`

The assembly warns of a token that names `r0` where a register is written; the datapath selects the
register that it writes by the control signals of the opcode. The two agree:

* **one register** — the control signals select the register that the class of the opcode writes
  (`Stage.destination?_ofOpcode`), and the check of the operands warns if that is `r0`
  (`Operand.hardwired_check`);
* **programs** — the log of a program warns about a line exactly if the instruction that the line
  adds has `r0` for its destination (`Program.warnsOf_iff`).
-/

namespace TinyMips

/-! ## Destinations -/

/-- The control signals of an opcode select the register that its class writes. -/
theorem Stage.destination?_ofOpcode (op : Opcode) (operands : Operands) :
    destination? (ControlSignals.ofOpcode op).dest operands =
      (OperandBundle.mk op.formatClass operands).destination? := by
  cases op <;> cases operands <;> rfl

/-- The register that an instruction writes. -/
def Instruction.destination? (inst : Instruction) : Option Reg :=
  Stage.destination? (ControlSignals.ofOpcode inst.opcode).dest inst.operands

namespace Instruction

variable (inst : Instruction)

theorem destination?_of_isTerminal (terminal : inst.opcode.isTerminal = true) :
    inst.destination? = none := by
  obtain ⟨opcode, operands, line, address, assembled⟩ := inst
  cases opcode <;> first | contradiction | rfl

/-- Linking replaces no register. -/
theorem destination?_link (labels : LabelTable) :
    (inst.link labels).destination? = inst.destination? := by
  unfold link
  split
  · next value _ =>
    obtain ⟨opcode, operands, line, address, assembled⟩ := inst
    unfold destination?
    rw [Stage.destination?_ofOpcode, Stage.destination?_ofOpcode]
    cases operands <;> cases opcode <;> rfl
  · rfl

theorem destination?_assembleAt (index : Nat) (labels : LabelTable) :
    (inst.assembleAt index labels).destination? = inst.destination? :=
  (inst.layAt index).destination?_link labels

end Instruction

/-! ## Warnings of the operand check -/

namespace Operand

/-- The first piece of a text is warned about if what the text spells writes `r0`. -/
theorem Spells.hardwired {op : Opcode} {tokens : List (List Char)} {operands : Operands}
    (spelled : Spells op tokens operands) :
    (∃ name, .registerHardwired name ∈ firstWarnings op tokens) ↔
      (OperandBundle.mk op.formatClass operands).destination? = some .zero := by
  cases spelled with
  | none format =>
    rcases Opcode.format_eq_none_iff.mp format with rfl | rfl | rfl <;>
      simp [firstWarnings, Opcode.formatClass, OperandBundle.destination?]
  | register format written =>
    rw [hardwired_mem_firstWarnings, written]
    rcases Opcode.format_eq_register_iff.mp format with rfl | rfl <;>
      simp [Opcode.WritesFirst, Opcode.formatClass, OperandBundle.destination?]
  | arithmetic format written =>
    rw [hardwired_mem_firstWarnings, written]
    obtain rfl := Opcode.format_eq_immediateArith_iff.mp format
    simp [Opcode.WritesFirst, Opcode.formatClass, OperandBundle.destination?]
  | memory format named =>
    rw [hardwired_mem_firstWarnings, named]
    rcases Opcode.format_eq_memory_iff.mp format with rfl | rfl <;>
      simp [Opcode.WritesFirst, Opcode.formatClass, OperandBundle.destination?]
  | branch format =>
    have reads : op.formatClass = .immediateRead := by
      cases op <;> first | contradiction | rfl
    rw [hardwired_mem_firstWarnings]
    simp [Opcode.WritesFirst, reads, OperandBundle.destination?]
  | jump format =>
    rw [hardwired_mem_firstWarnings]
    rcases Opcode.format_eq_jump_iff.mp format with rfl | rfl <;>
      simp [Opcode.WritesFirst, Opcode.formatClass, OperandBundle.destination?, Reg.link, Reg.zero]

/-- An operand text is warned about if its instruction writes `r0`. -/
theorem hardwired_check {op : Opcode} {text : List Char} {bundle : OperandBundle}
    (accepted : (check op text).value? = some bundle) :
    (∃ name, .registerHardwired name ∈ (check op text).warnings) ↔
      Stage.destination? (ControlSignals.ofOpcode op).dest bundle.operands = some .zero := by
  obtain ⟨-, spelled⟩ := value?_check_iff.mp accepted
  rw [warnings_check, warnings_ofPieces spelled.length, Stage.destination?_ofOpcode]
  exact spelled.hardwired

end Operand

/-- The instruction that a line adds writes `r0` if the line is warned about. -/
theorem SourceLine.hardwired_instruction? {line : SourceLine} {inst : Instruction}
    (h : line.instruction? = some inst) :
    (∃ name, .registerHardwired name ∈ (Request.ofLine line).warnings) ↔
      inst.destination? = some .zero := by
  obtain ⟨mnemonic, bundle, written, undotted, known, accepted, made⟩ := check_of_instruction? h
  have asked := Request.ofLine_of_check written undotted known accepted
  have operands : inst.operands = bundle.operands := by rw [made]
  unfold Instruction.destination?
  rw [asked, operands]
  exact Operand.hardwired_check accepted

/-! ## Warnings of a source -/

namespace Layout

section Hardwired

variable {number : Nat} {name : String}

/-- Of all that a line may warn about, only the check of its operands concerns a register. -/
theorem hardwired_warned (layout : Layout) (line : SourceLine) :
    { line := some number, message := .registerHardwired name } ∈ layout.warned line ↔
      line.number = number ∧ .registerHardwired name ∈ (Request.ofLine line).warnings := by
  unfold warned
  cases asks : line.region? with
  | none =>
    obtain ⟨errors, asked⟩ := SourceLine.region?_eq_none_iff.mp asks
    rw [asked]
    simp [Request.warnings]
  | some region =>
    have fits : { line := some number, message := .registerHardwired name } ∉
        layout.overflow line := by
      intro mem
      rcases layout.message_of_mem_overflow line mem with ⟨-, other⟩ | ⟨-, other⟩ <;> cases other
    have kept : { line := some number, message := .registerHardwired name } ∉
        dropped (layout.stage line).waiting (layout.free? region) := by
      intro mem
      obtain ⟨label, other⟩ := message_of_mem_dropped mem
      cases other
    simp [fits, kept, eq_comm, and_comm]

/-- The warnings of a source about registers are those of its lines. -/
theorem hardwired_ofLines (lines : List SourceLine) :
    { line := some number, message := .registerHardwired name } ∈ (ofLines lines).log.warnings ↔
      ∃ line ∈ lines, line.number = number ∧
        .registerHardwired name ∈ (Request.ofLine line).warnings := by
  rw [← Array.mem_toList_iff, warnings_ofLines, List.mem_append, List.mem_flatMap]
  constructor
  · rintro (⟨⟨line, i⟩, within, mem⟩ | mem)
    · have found := List.mem_zipIdx_iff_getElem?.mp within
      exact ⟨line, List.mem_of_getElem? found, (hardwired_warned _ line).mp mem⟩
    · obtain ⟨label, -, other⟩ := List.mem_map.mp mem
      cases other
  · rintro ⟨line, mem, warns⟩
    obtain ⟨i, found⟩ := List.mem_iff_getElem?.mp mem
    exact .inl ⟨(line, i), List.mem_zipIdx_iff_getElem?.mpr found,
      (hardwired_warned _ line).mpr warns⟩

end Hardwired

end Layout

namespace Program

/-- Whether the assembly of a program warned that a line writes `r0`. -/
def WarnsOf (program : Program) (number : Nat) : Prop :=
  ∃ name, { line := some number, message := .registerHardwired name } ∈ program.log.warnings

variable {lines : List SourceLine} {program : Program} {index : Nat} {inst : Instruction}

/-- The assembly warns of the lines whose instruction writes `r0`. -/
theorem warnsOf_iff (ordered : lines.Pairwise fun a b => a.number < b.number)
    (h : ofLines lines = .ok program) (found : program.text.get? index = some inst) {number : Nat}
    (origin : inst.line = some number) :
    program.WarnsOf number ↔ inst.destination? = some .zero := by
  obtain ⟨line, mem, written, wrote, -, own, made⟩ := line_of_get? h found
  obtain rfl := Option.some.inj (origin.symm.trans own)
  have log : program.log = (Layout.ofLines lines).log := by rw [(ofLines_eq_ok h).2.2]
  have destination : inst.destination? = written.destination? := by
    rw [made]
    exact written.destination?_assembleAt index program.labels
  unfold WarnsOf
  rw [log, destination, ← SourceLine.hardwired_instruction? wrote]
  constructor
  · rintro ⟨name, warned⟩
    obtain ⟨other, within, same, warns⟩ := (Layout.hardwired_ofLines lines).mp warned
    obtain rfl := SourceLine.eq_of_number_eq ordered within mem same
    exact ⟨name, warns⟩
  · rintro ⟨name, warns⟩
    exact ⟨name, (Layout.hardwired_ofLines lines).mpr ⟨line, mem, rfl, warns⟩⟩

end Program

end TinyMips
