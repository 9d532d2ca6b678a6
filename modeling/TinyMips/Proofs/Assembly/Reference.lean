import TinyMips.Proofs.Assembly.Program

/-!
# Label references

What stands in a program for an operand that was written as a label: the label is in the table,
its address lies in the region that the opcode refers to, and the operands encode that address
(`Instruction.RefersTo`, `Program.refersTo_of_placed`). The distance of a branch leads back to the
address (`Instruction.add_branchOffset`).
-/

namespace TinyMips

/-- The line of an instruction is known by its number. -/
theorem SourceLine.eq_of_number_eq {lines : List SourceLine}
    (ordered : lines.Pairwise fun a b => a.number < b.number) {a b : SourceLine} (ha : a ∈ lines)
    (hb : b ∈ lines) (h : a.number = b.number) : a = b := by
  obtain ⟨i, hi, rfl⟩ := List.mem_iff_getElem.mp ha
  obtain ⟨j, hj, rfl⟩ := List.mem_iff_getElem.mp hb
  rw [List.pairwise_iff_getElem] at ordered
  rcases Nat.lt_trichotomy i j with lt | rfl | lt
  · have := ordered i j hi hj lt
    omega
  · rfl
  · have := ordered j i hj hi lt
    omega

namespace Instruction

/-- The forms of an instruction that refers to an address. -/
inductive RefersTo (inst : Instruction) (target : Address) : Prop where
  /-- A load or a store with the word address of a data address. -/
  | access (rt : Reg) (format : inst.opcode.format = .memory)
    (operands : inst.operands =
      .immediate .zero rt (.literal (Word.ofBytes target.toInt64)) .wordAddress)
    (supported : Region.data.Supports target.toNat)
  /-- A branch with the distance of an instruction address. -/
  | branch (rs rt : Reg) (format : inst.opcode.format = .branch)
    (operands : inst.operands =
      .immediate rs rt (.literal (branchOffset inst.address target)) .plain)
    (supported : Region.text.Supports target.toNat)
  /-- A jump with the word address of an instruction address. -/
  | jump (format : inst.opcode.format = .jump)
    (operands : inst.operands = .jump (.literal (Word.ofBytes target.toInt64)))
    (supported : Region.text.Supports target.toNat)

section Distance

variable {own target : Address} (hown : Region.text.Supports own.toNat)
  (htarget : Region.text.Supports target.toNat)

include hown htarget

/-- The distance in bytes from the instruction after one's own address is exact. -/
theorem toInt_distance :
    (target.toInt64 - (own + 4).toInt64).toInt = (target.toNat : Int) - (own.toNat + 4) := by
  have ownRange := (Region.supports_text_iff _).mp hown
  have targetRange := (Region.supports_text_iff _).mp htarget
  have next : (own + 4).toNat = own.toNat + 4 := by
    rw [UInt64.toNat_add]
    show (own.toNat + 4) % 2 ^ 64 = _
    omega
  have nextValue : (own + 4).toInt64.toInt = own.toNat + 4 := by
    rw [Address.toInt_toInt64 (by omega), next]
    rfl
  rw [Int64.toInt_sub, nextValue, Region.toInt_toInt64 htarget]
  exact Int.bmod_eq_of_le (by omega) (by omega)

theorem toInt_branchOffset :
    (branchOffset own target).toInt = ((target.toNat : Int) - (own.toNat + 4)) / 4 := by
  unfold branchOffset
  rw [Word.toInt_ofBytes, toInt_distance hown htarget]

/-- The distance of a branch leads from the instruction after it to its target. -/
theorem add_branchOffset : own + 4 + (branchOffset own target).toBytes.toUInt64 = target := by
  have ownRange := (Region.supports_text_iff _).mp hown
  have targetRange := (Region.supports_text_iff _).mp htarget
  have aligned : (target.toInt64 - (own + 4).toInt64).toInt % 4 = 0 := by
    rw [toInt_distance hown htarget]
    omega
  unfold branchOffset
  rw [Word.toBytes_ofBytes aligned, Int64.toUInt64_sub, UInt64.toUInt64_toInt64,
    UInt64.toUInt64_toInt64, UInt64.add_comm, UInt64.sub_add_cancel]

end Distance

end Instruction

namespace Program

variable {lines : List SourceLine} {program : Program} {index : Nat} {inst written : Instruction}

/-- An instruction of a program was written by the line whose number it carries. -/
theorem placed_of_line (ordered : lines.Pairwise fun a b => a.number < b.number)
    (h : ofLines lines = .ok program) (found : program.text.get? index = some inst)
    {line : SourceLine} (mem : line ∈ lines) (origin : inst.line = some line.number)
    (wrote : line.instruction? = some written) :
    (SourceLine.placed lines)[index]? = some written := by
  obtain ⟨other, placed, clean, rfl⟩ := written_of_get? h found
  obtain ⟨source, within, hother⟩ := SourceLine.exists_line_of_placed placed
  rw [Instruction.line_assembleAt, (SourceLine.accepted_of_instruction? hother).2] at origin
  obtain rfl := SourceLine.eq_of_number_eq ordered within mem (Option.some.inj origin)
  rw [placed, ← hother, wrote]

/-- Where a label was written, it is in the table and the operands encode its address. -/
theorem refersTo_of_placed (h : ofLines lines = .ok program)
    (found : program.text.get? index = some inst)
    (placed : (SourceLine.placed lines)[index]? = some written) {name : String}
    (refers : written.operands.label? = some name) :
    ∃ target, program.labels.get? name = some target ∧ inst.RefersTo target := by
  obtain ⟨other, hother, clean, rfl⟩ := written_of_get? h found
  obtain rfl := Option.some.inj (hother.symm.trans placed)
  obtain ⟨line, -, wrote⟩ := SourceLine.exists_line_of_placed placed
  have label : (other.layAt index).label? = some name := refers
  obtain ⟨value, linked, eq⟩ := Instruction.link_of_label label clean
  obtain ⟨target, defined, supported, encoded⟩ := Instruction.labelImmediate_eq_ok linked
  have operands : (other.assembleAt index program.labels).operands =
      other.operands.withImmediate (.literal value) := by
    rw [Instruction.operands_assembleAt, eq]
    rfl
  refine ⟨target, defined, ?_⟩
  have opcode : (other.layAt index).opcode = other.opcode := rfl
  have address : (other.layAt index).address = Region.text.addressOf index := rfl
  rw [opcode] at supported encoded
  rw [address] at encoded
  have accepted := (SourceLine.accepted_of_instruction? wrote).1
  generalize other.operands = source at *
  cases accepted with
  | none | register | arithmetic | offset | dataAddress | distance | target => contradiction
  | dataLabel rt _ format =>
    rw [Instruction.labelRegion, if_pos format] at supported
    rw [if_neg (by rw [format]; decide)] at encoded
    subst encoded
    exact .access rt (by simpa using format) operands supported
  | branchLabel rs rt _ format =>
    rw [Instruction.labelRegion, if_neg (by rw [format]; decide)] at supported
    rw [if_pos format] at encoded
    obtain ⟨rfl, -⟩ := encoded
    refine .branch rs rt (by simpa using format) ?_ supported
    rw [Instruction.address_assembleAt]
    exact operands
  | jumpLabel _ format =>
    rw [Instruction.labelRegion, if_neg (by rw [format]; decide)] at supported
    rw [if_neg (by rw [format]; decide)] at encoded
    subst encoded
    exact .jump (by simpa using format) operands supported

end Program

end TinyMips
