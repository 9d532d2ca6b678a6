import TinyMips.Assembly.Program
import TinyMips.Proofs.Assembly.Layout
import TinyMips.Proofs.Assembly.Link

/-!
# Well-formed programs

Every program of the assembler is well-formed:

* **origin** — each instruction was written by a line, placed at the address of its index and
  linked without an error (`Program.written_of_get?`);
* **invariant** — so it is ready, has operands within the bounds of its opcode and carries its
  line, and every label stands for a placed item (`Program.WellFormed`,
  `Program.wellFormed_of_ofSource`).
-/

namespace TinyMips

/-! ## Lines -/

namespace SourceLine

theorem number_ofText (number : Nat) (raw : List Char) : (ofText number raw).number = number := by
  unfold ofText
  rfl

/-- The lines of a source are numbered in order. -/
theorem pairwise_ofSource (source : String) :
    (ofSource source).Pairwise fun a b => a.number < b.number := by
  unfold ofSource
  rw [List.pairwise_iff_getElem]
  intro i j hi hj lt
  rw [List.getElem_mapIdx, List.getElem_mapIdx, number_ofText, number_ofText]
  omega

/-- The instructions that lines place, in order. -/
def placed (lines : List SourceLine) : List Instruction :=
  (lines.filterMap instruction?).take 256

theorem exists_line_of_placed {lines : List SourceLine} {index : Nat} {written : Instruction}
    (h : (placed lines)[index]? = some written) :
    ∃ line ∈ lines, line.instruction? = some written :=
  List.mem_filterMap.mp (List.mem_of_mem_take (List.mem_of_getElem? h))

/-- Instructions are placed in the order of their lines. -/
theorem pairwise_placed {lines : List SourceLine}
    (ordered : lines.Pairwise fun a b => a.number < b.number) :
    (placed lines).Pairwise fun a b => ∃ m n, a.line = some m ∧ b.line = some n ∧ m < n := by
  refine (ordered.filterMap instruction? ?_).sublist (List.take_sublist _ _)
  intro a b lt first hfirst second hsecond
  exact ⟨a.number, b.number, (accepted_of_instruction? hfirst).2,
    (accepted_of_instruction? hsecond).2, lt⟩

end SourceLine

namespace Instruction

/-- The instruction at the address of an index. -/
def layAt (written : Instruction) (index : Nat) : Instruction :=
  { written with address := Region.text.addressOf index }

/-- The instruction as it stands in a program: at its address, linked and marked as assembled. -/
def assembleAt (written : Instruction) (index : Nat) (labels : LabelTable) : Instruction :=
  { (written.layAt index).link labels with assembled := true }

variable (written : Instruction) (index : Nat) (labels : LabelTable)

@[simp] theorem opcode_assembleAt :
    (written.assembleAt index labels).opcode = written.opcode := by
  simp [assembleAt, layAt]

@[simp] theorem line_assembleAt : (written.assembleAt index labels).line = written.line := by
  simp [assembleAt, layAt]

@[simp] theorem address_assembleAt :
    (written.assembleAt index labels).address = Region.text.addressOf index := by
  simp [assembleAt, layAt]

@[simp] theorem assembled_assembleAt :
    (written.assembleAt index labels).assembled = true := rfl

theorem operands_assembleAt :
    (written.assembleAt index labels).operands = ((written.layAt index).link labels).operands :=
  rfl

/-- Operands without a label stand in a program as they were written. -/
theorem operands_assembleAt_of_unlabelled (h : written.operands.label? = none) :
    (written.assembleAt index labels).operands = written.operands := by
  have laid : (written.layAt index).label? = none := h
  rw [operands_assembleAt, link_of_unlabelled laid]
  rfl

end Instruction

/-- An error of one instruction would be among the errors of all. -/
theorem TextStore.linkError?_of_get? {store : TextStore} {labels : LabelTable}
    (clean : store.linkErrors labels = #[]) {index : Nat} {inst : Instruction}
    (found : store.get? index = some inst) : inst.linkError? labels = none := by
  cases reported : inst.linkError? labels with
  | none => rfl
  | some entry =>
    have mem : entry ∈ store.linkErrors labels :=
      Array.mem_filterMap.mpr ⟨inst, Array.mem_of_getElem? found, reported⟩
    rw [clean] at mem
    exact absurd mem (Array.not_mem_empty _)

namespace Program

variable {lines : List SourceLine} {program : Program}

/-! ## The origin of an instruction -/

/-- A program comes from a layout without errors whose references were all linked. -/
theorem ofLines_eq_ok (h : ofLines lines = .ok program) :
    (Layout.ofLines lines).log.errors = #[] ∧
      (Layout.ofLines lines).text.linkErrors (Layout.ofLines lines).labels = #[] ∧
      program =
        { text := ((Layout.ofLines lines).text.link (Layout.ofLines lines).labels).map
            fun inst => { inst with assembled := true }
          data := (Layout.ofLines lines).data
          labels := (Layout.ofLines lines).labels
          log := (Layout.ofLines lines).log } := by
  unfold ofLines Layout.toProgram at h
  split at h
  · contradiction
  · next silent =>
    have empty : (Layout.ofLines lines).log.errors ++
        (Layout.ofLines lines).text.linkErrors (Layout.ofLines lines).labels = #[] := by
      simpa [Log.hasErrors, Layout.link] using silent
    obtain ⟨noError, linked⟩ := Array.append_eq_empty_iff.mp empty
    refine ⟨noError, linked, ?_⟩
    rw [← Except.ok.inj h]
    unfold Layout.link
    rw [linked, Array.append_empty]

/-- The instructions of a program are those of its lines, linked where they are placed. -/
theorem get?_text (h : ofLines lines = .ok program) (index : Nat) :
    program.text.get? index =
      ((SourceLine.placed lines)[index]?).map fun written =>
        written.assembleAt index program.labels := by
  obtain ⟨-, -, rfl⟩ := ofLines_eq_ok h
  unfold TextStore.link
  rw [TextStore.get?_map, TextStore.get?_map, Layout.text_ofLines, TextStore.get?_foldl_push,
    Option.map_map, Option.map_map]
  rfl

/-- Every instruction of a program was written by a line and linked at the address of its
index. -/
theorem written_of_get? (h : ofLines lines = .ok program) {index : Nat} {inst : Instruction}
    (found : program.text.get? index = some inst) :
    ∃ written, (SourceLine.placed lines)[index]? = some written ∧
      (written.layAt index).linkError? program.labels = none ∧
      inst = written.assembleAt index program.labels := by
  obtain ⟨-, linked, rfl⟩ := ofLines_eq_ok h
  unfold TextStore.link at found
  rw [TextStore.get?_map, TextStore.get?_map, Option.map_map, Option.map_eq_some_iff] at found
  obtain ⟨laid, stored, rfl⟩ := found
  have clean := TextStore.linkError?_of_get? linked stored
  rw [Layout.text_ofLines, TextStore.get?_foldl_push, Option.map_eq_some_iff] at stored
  obtain ⟨written, placed, rfl⟩ := stored
  exact ⟨written, placed, clean, rfl⟩

theorem size_text (h : ofLines lines = .ok program) :
    program.text.size = (Layout.ofLines lines).text.size := by
  obtain ⟨-, -, rfl⟩ := ofLines_eq_ok h
  unfold TextStore.link
  rw [TextStore.size_map, TextStore.size_map]

/-- A placed instruction of a program is linked without an error. -/
theorem clean_of_placed (h : ofLines lines = .ok program) {index : Nat} {written : Instruction}
    (placed : (SourceLine.placed lines)[index]? = some written) :
    (written.layAt index).linkError? program.labels = none := by
  have found := get?_text h index
  rw [placed, Option.map_some] at found
  obtain ⟨other, same, clean, -⟩ := written_of_get? h found
  obtain rfl := Option.some.inj (same.symm.trans placed)
  exact clean

/-- Lines without errors whose references can all be linked are assembled. -/
theorem exists_ofLines (silent : (Layout.ofLines lines).log.errors = #[])
    (clean : ∀ (index : Nat) (written : Instruction),
      (SourceLine.placed lines)[index]? = some written →
        (written.layAt index).linkError? (Layout.ofLines lines).labels = none) :
    ∃ program, ofLines lines = .ok program := by
  have linked : (Layout.ofLines lines).text.linkErrors (Layout.ofLines lines).labels = #[] := by
    unfold TextStore.linkErrors
    rw [Array.filterMap_eq_empty_iff]
    intro inst mem
    obtain ⟨index, found⟩ := Array.mem_iff_getElem?.mp mem
    replace found : (Layout.ofLines lines).text.get? index = some inst := found
    rw [Layout.text_ofLines, TextStore.get?_foldl_push, Option.map_eq_some_iff] at found
    obtain ⟨written, placed, rfl⟩ := found
    exact clean index written placed
  have accepted : (Layout.ofLines lines).link.log.hasErrors = false := by
    unfold Layout.link Log.hasErrors
    rw [silent, linked]
    rfl
  unfold ofLines Layout.toProgram
  rw [accepted]
  exact ⟨_, rfl⟩

end Program

/-! ## Well-formedness -/

/-- What a program promises of the instruction at an index. -/
structure Instruction.WellFormed (inst : Instruction) (index : Nat) : Prop where
  address : inst.address.toNat = 0x00400000 + 4 * index
  ready : inst.isReady = true
  fits : inst.operands.Fits inst.opcode
  plain (rs rt : Reg) (value : Word)
    (shape : inst.operands = .immediate rs rt (.literal value) .plain) :
    -32768 ≤ value.toInt ∧ value.toInt ≤ 32767
  wordAddress (rs rt : Reg) (value : Word)
    (shape : inst.operands = .immediate rs rt (.literal value) .wordAddress) :
    (inst.opcode = .lw ∨ inst.opcode = .sw) ∧ rs = .zero ∧
      Region.data.Supports value.toBytes.toInt
  target (value : Word) (shape : inst.operands = .jump (.literal value)) :
    0 ≤ value.toInt ∧ value.toInt ≤ 2 ^ 26 - 1 ∧ Region.text.Supports value.toBytes.toInt

/-- Accepted operands are within the bounds of their opcode. -/
theorem Instruction.wellFormed_of_accepted {inst : Instruction} {index : Nat} (lt : index < 256)
    (address : inst.address = Region.text.addressOf index)
    (accepted : inst.operands.Accepted inst.opcode) (ready : inst.isReady = true) :
    inst.WellFormed index where
  address := by
    rw [address, Region.toNat_addressOf_text (by omega)]
  ready := ready
  fits := accepted.fits
  plain rs rt value shape := by
    rw [shape] at accepted
    cases accepted with
    | arithmetic _ _ _ _ fits | offset _ _ _ _ fits | distance _ _ _ _ fits =>
      exact Word.fits16_iff.mp fits
  wordAddress rs rt value shape := by
    rw [shape] at accepted
    cases accepted with
    | dataAddress _ _ format _ _ supported =>
      exact ⟨Opcode.format_eq_memory_iff.mp format, rfl, supported⟩
  target value shape := by
    rw [shape] at accepted
    cases accepted with
    | target _ _ low high supported => exact ⟨low, high, supported⟩

/-- What the assembler promises of a program that it makes of some lines. -/
structure Program.WellFormed (program : Program) (lines : List SourceLine) : Prop where
  size_le : program.text.size ≤ 256
  instructions (index : Nat) (inst : Instruction) (found : program.text.get? index = some inst) :
    inst.WellFormed index ∧ ∃ line ∈ lines, inst.line = some line.number
  ordered (i j : Nat) (a b : Instruction) (lt : i < j) (first : program.text.get? i = some a)
    (second : program.text.get? j = some b) :
    ∃ m n, a.line = some m ∧ b.line = some n ∧ m < n
  data : program.data.Dense
  labels (entry : String × Address) (defined : entry ∈ program.labels.entries) :
    Label.isValid entry.1.toList = true ∧ Layout.IsPlaced program.text program.data entry.2
  errors : program.log.errors = #[]

namespace Program

variable {lines : List SourceLine} {program : Program}

/-- What is linked into a program is bounded as a literal would be. -/
theorem accepted_of_get? (h : ofLines lines = .ok program) {index : Nat} {inst : Instruction}
    (found : program.text.get? index = some inst) :
    inst.operands.Accepted inst.opcode ∧ inst.operands.label? = none := by
  obtain ⟨written, placed, clean, rfl⟩ := written_of_get? h found
  obtain ⟨line, -, wrote⟩ := SourceLine.exists_line_of_placed placed
  have accepted : (written.layAt index).operands.Accepted (written.layAt index).opcode :=
    (SourceLine.accepted_of_instruction? wrote).1
  have linked := Instruction.accepted_link accepted clean
  rw [Instruction.opcode_assembleAt, Instruction.operands_assembleAt]
  exact linked

theorem address_of_get? (h : ofLines lines = .ok program) {index : Nat} {inst : Instruction}
    (found : program.text.get? index = some inst) :
    inst.address = Region.text.addressOf index := by
  obtain ⟨written, -, -, rfl⟩ := written_of_get? h found
  exact Instruction.address_assembleAt _ _ _

theorem ready_of_get? (h : ofLines lines = .ok program) {index : Nat} {inst : Instruction}
    (found : program.text.get? index = some inst) : inst.isReady = true := by
  have unlabelled : inst.label? = none := (accepted_of_get? h found).2
  obtain ⟨written, -, -, rfl⟩ := written_of_get? h found
  unfold Instruction.isReady
  rw [Instruction.assembled_assembleAt, unlabelled]
  rfl

theorem dense_of_ofLines (h : ofLines lines = .ok program) : program.data.Dense := by
  obtain ⟨-, -, rfl⟩ := ofLines_eq_ok h
  exact (Layout.sound_ofLines lines).dense

theorem wellFormed_of_ofLines (ordered : lines.Pairwise fun a b => a.number < b.number)
    (h : ofLines lines = .ok program) : program.WellFormed lines where
  size_le := program.text.size_le
  instructions index inst found := by
    have wellFormed := Instruction.wellFormed_of_accepted (TextStore.lt_of_get? found)
      (address_of_get? h found)
      (accepted_of_get? h found).1 (ready_of_get? h found)
    obtain ⟨written, placed, -, rfl⟩ := written_of_get? h found
    obtain ⟨line, mem, wrote⟩ := SourceLine.exists_line_of_placed placed
    refine ⟨wellFormed, line, mem, ?_⟩
    rw [Instruction.line_assembleAt]
    exact (SourceLine.accepted_of_instruction? wrote).2
  ordered i j a b lt first second := by
    obtain ⟨before, hbefore, -, rfl⟩ := written_of_get? h first
    obtain ⟨after, hafter, -, rfl⟩ := written_of_get? h second
    obtain ⟨hi, rfl⟩ := List.getElem?_eq_some_iff.mp hbefore
    obtain ⟨hj, rfl⟩ := List.getElem?_eq_some_iff.mp hafter
    rw [Instruction.line_assembleAt, Instruction.line_assembleAt]
    exact List.pairwise_iff_getElem.mp (SourceLine.pairwise_placed ordered) i j hi hj lt
  data := dense_of_ofLines h
  labels entry defined := by
    obtain ⟨silent, -, rfl⟩ := ofLines_eq_ok h
    have sound := Layout.sound_ofLines lines
    refine ⟨sound.names entry defined, (sound.placed silent entry defined).mono ?_ (Nat.le_refl _)⟩
    simp [TextStore.link]
  errors := by
    obtain ⟨silent, -, rfl⟩ := ofLines_eq_ok h
    exact silent

/-- Whatever source the assembler accepts, its program is well-formed. -/
theorem wellFormed_of_ofSource {source : String} (h : ofSource source = .ok program) :
    program.WellFormed (SourceLine.ofSource source) :=
  wellFormed_of_ofLines (SourceLine.pairwise_ofSource source) h

/-- Labels in both directions and into both regions make a well-formed program. -/
theorem wellFormed_of_ofSource_of_references :
    let source := "loop: lw r1, v\n beq r1, r0, last\n j loop\nlast: halt\nv: .word 7"
    ∃ program, ofSource source = .ok program ∧ program.text.size = 4 ∧
      program.WellFormed (SourceLine.ofSource source) := by
  intro source
  have size : (ofSource source).toOption.map (fun program => program.text.size) = some 4 := by
    decide +kernel
  cases h : ofSource source with
  | error reasons =>
    rw [h] at size
    contradiction
  | ok program =>
    rw [h] at size
    exact ⟨program, rfl, Option.some.inj size, wellFormed_of_ofSource h⟩

end Program

end TinyMips
