import TinyMips.Proofs.Assembly.Resolved
import TinyMips.Proofs.Assembly.Shift

/-!
# A program behind one more instruction

With a `nop` in front of its lines, everything in the instruction region of a program moves on by
one instruction. A distance stays the same when both of its ends move, a data address does not move,
and a jump target moves where it was written as a label but not where it was written as a number:

* **references** — what an instruction is linked to behind one more instruction
  (`Instruction.referenceValue_behind`, `Instruction.relocated_assembleAt`);
* **a source** — the lines still assemble as long as there is room for one more instruction, and
  `Program.relocated_behind_nop` has what becomes of each part.
-/

namespace TinyMips

/-- Labels stand among the operands of a load, a store, a branch or a jump. -/
theorem Operands.Accepted.format_of_label {op : Opcode} {operands : Operands}
    (accepted : operands.Accepted op) {name : String} (refers : operands.label? = some name) :
    op.format = .memory ∨ op.format = .branch ∨
      op.format = .jump ∧ operands = .jump (.label name) := by
  cases accepted with
  | none | register | arithmetic | offset | dataAddress | distance | target => contradiction
  | dataLabel rt other format => exact .inl format
  | branchLabel rs rt other format => exact .inr (.inl format)
  | jumpLabel other format =>
    obtain rfl := Option.some.inj refers
    exact .inr (.inr ⟨format, rfl⟩)

namespace Instruction

/-! ## References -/

/-- How an instruction of a program changes behind one more instruction, given as a line wrote
it. -/
structure Relocated (written inst moved : Instruction) : Prop where
  opcode : moved.opcode = inst.opcode
  line : moved.line = inst.line.map (· + 1)
  address : moved.address.toNat = inst.address.toNat + 4
  assembled : moved.assembled = inst.assembled
  /-- A jump target that was written as a label is larger by one. -/
  target (name : String) (wrote : written.operands = .jump (.label name)) :
    ∃ target target' : Word, inst.operands = .jump (.literal target) ∧
      moved.operands = .jump (.literal target') ∧ target'.toInt = target.toInt + 1
  /-- All other operands stay the same: registers, and the immediates of branches, loads, stores and
  jumps to numbers. -/
  kept (other : ∀ name, written.operands ≠ .jump (.label name)) : moved.operands = inst.operands

/-- The immediate of a jump moves with its target. That of a branch stays, as the branch moves with
the target, and so does that of a load or a store. -/
theorem referenceValue_behind {op : Opcode} {own index : Nat} (hown : own < 255)
    (room : (labelRegion op).behind 1 index < 256)
    (refers : op.format = .memory ∨ op.format = .branch ∨ op.format = .jump) :
    referenceValue op (Region.text.addressOf (own + 1))
        ((labelRegion op).addressOf ((labelRegion op).behind 1 index)) =
      referenceValue op (Region.text.addressOf own) ((labelRegion op).addressOf index) +
        if op.format = .jump then 1 else 0 := by
  unfold referenceValue labelRegion at *
  rcases refers with format | format | format
  · simp [format, Region.behind]
  -- both ends of the distance are one instruction further
  · simp only [format, reduceCtorEq, if_false, if_true, Region.behind] at room ⊢
    rw [Region.toNat_addressOf_text (by omega), Region.toNat_addressOf_text (by omega),
      Region.toNat_addressOf_text (by omega), Region.toNat_addressOf_text (by omega)]
    omega
  · simp only [format, reduceCtorEq, if_false, if_true, Region.behind] at room ⊢
    rw [Region.toNat_addressOf_text (by omega), Region.toNat_addressOf_text (by omega)]
    omega

/-- What stands in a program for an operand that was written as a label. -/
theorem operands_assembleAt_of_label {written : Instruction} {index : Nat} {labels : LabelTable}
    (lt : index < 256) {name : String} (refers : written.operands.label? = some name)
    (clean : (written.layAt index).linkError? labels = none) :
    ∃ (value : Word) (target : Address),
      (written.assembleAt index labels).operands =
        written.operands.withImmediate (.literal value) ∧
      labels.get? name = some target ∧
      value.toInt = referenceValue written.opcode (Region.text.addressOf index) target := by
  have laid : (written.layAt index).label? = some name := refers
  obtain ⟨value, linked, eq⟩ := link_of_label laid clean
  obtain ⟨target, defined, encoded⟩ :=
    toInt_of_labelImmediate (Region.supports_addressOf .text lt) linked
  refine ⟨value, target, ?_, defined, encoded⟩
  rw [operands_assembleAt, eq]
  rfl

section Linked

variable {written : Instruction} {index : Nat} {labels behind : LabelTable}
  (lt : index < 255)
  (moved : ∀ name, behind.get? name = (labels.get? name).map (Address.behind 1))
  (room : ∀ name address, labels.get? name = some address →
    ∃ (region : Region) (index : Nat), region.behind 1 index < 256 ∧
      address = region.addressOf index)
  (clean : (written.layAt index).linkError? labels = none)

include lt moved room clean

/-- A label that is linked stands for an item of the region that the opcode refers to, behind one
more instruction as well. -/
theorem exists_reference_behind {name : String} (refers : written.operands.label? = some name) :
    ∃ target, (labelRegion written.opcode).behind 1 target < 256 ∧
      labels.get? name = some ((labelRegion written.opcode).addressOf target) ∧
      behind.get? name = some ((labelRegion written.opcode).addressOf
        ((labelRegion written.opcode).behind 1 target)) := by
  have laid : (written.layAt index).label? = some name := refers
  obtain ⟨value, linked, -⟩ := link_of_label laid clean
  obtain ⟨address, defined, -⟩ := labelImmediate_eq_ok linked
  obtain ⟨region, target, within, rfl⟩ := room name address defined
  have small : target < 256 := by cases region <;> simp only [Region.behind] at within <;> omega
  -- items of the other region are refused
  have same : region = labelRegion written.opcode := by
    rw [linkError?_of_defined (by omega) small rfl laid defined] at clean
    split at clean
    · next same => exact same
    · contradiction
  rw [← same]
  refine ⟨target, within, defined, ?_⟩
  rw [moved, defined, Option.map_some, Address.behind_addressOf 1 region small]

theorem linkError?_behind : (written.layAt (index + 1)).linkError? behind = none := by
  cases refers : written.operands.label? with
  | none => exact linkError?_of_unlabelled refers
  | some name =>
    obtain ⟨target, within, -, defined⟩ := exists_reference_behind lt moved room clean refers
    have laid : (written.layAt (index + 1)).label? = some name := refers
    rw [linkError?_of_defined (Nat.succ_lt_succ lt) within rfl laid defined]
    exact if_pos rfl

/-- A reference is linked to the same immediate behind one more instruction, but for a jump. -/
theorem operands_behind {name : String} (refers : written.operands.label? = some name)
    (format : written.opcode.format = .memory ∨ written.opcode.format = .branch ∨
      written.opcode.format = .jump) :
    ∃ value value' : Word,
      (written.assembleAt index labels).operands =
        written.operands.withImmediate (.literal value) ∧
      (written.assembleAt (index + 1) behind).operands =
        written.operands.withImmediate (.literal value') ∧
      value'.toInt = value.toInt + if written.opcode.format = .jump then 1 else 0 := by
  have clean' := linkError?_behind lt moved room clean
  obtain ⟨target, within, defined, defined'⟩ :=
    exists_reference_behind lt moved room clean refers
  obtain ⟨value, _, eq, found, encoded⟩ :=
    operands_assembleAt_of_label (by omega) refers clean
  obtain ⟨value', _, eq', found', encoded'⟩ :=
    operands_assembleAt_of_label (by omega) refers clean'
  obtain rfl := Option.some.inj (defined.symm.trans found)
  obtain rfl := Option.some.inj (defined'.symm.trans found')
  refine ⟨value, value', eq, eq', ?_⟩
  rw [encoded, encoded', referenceValue_behind lt within format]

theorem operands_kept {name : String} (refers : written.operands.label? = some name)
    (format : written.opcode.format = .memory ∨ written.opcode.format = .branch) :
    (written.assembleAt (index + 1) behind).operands =
      (written.assembleAt index labels).operands := by
  obtain ⟨value, value', eq, eq', same⟩ :=
    operands_behind lt moved room clean refers (format.imp_right .inl)
  have goesOn : written.opcode.format ≠ .jump := by
    rcases format with format | format <;> rw [format] <;> nofun
  rw [if_neg goesOn, Int.add_zero] at same
  rw [eq, eq', Int64.toInt_inj.mp same]

/-- An instruction of a program is relocated behind one more instruction. -/
theorem relocated_assembleAt (accepted : written.operands.Accepted written.opcode) :
    written.Relocated (written.assembleAt index labels)
      ((written.assembleAt (index + 1) behind).renumber (· + 1)) where
  opcode := by simp [renumber]
  line := by simp [renumber]
  address := by
    show (written.assembleAt (index + 1) behind).address.toNat = _
    rw [address_assembleAt, address_assembleAt, Region.toNat_addressOf_text (by omega),
      Region.toNat_addressOf_text (by omega)]
    omega
  assembled := rfl
  target name wrote := by
    have refers : written.operands.label? = some name := by rw [wrote]; rfl
    have format : written.opcode.format = .jump := by
      have fits := accepted.fits
      rwa [wrote] at fits
    obtain ⟨value, value', eq, eq', further⟩ :=
      operands_behind lt moved room clean refers (.inr (.inr format))
    rw [if_pos format] at further
    rw [wrote] at eq eq'
    exact ⟨value, value', eq, eq', further⟩
  kept other := by
    show (written.assembleAt (index + 1) behind).operands = _
    cases refers : written.operands.label? with
    | none =>
      rw [operands_assembleAt_of_unlabelled _ _ _ refers,
        operands_assembleAt_of_unlabelled _ _ _ refers]
    | some name =>
      rcases accepted.format_of_label refers with format | format | ⟨-, jumps⟩
      · exact operands_kept lt moved room clean refers (.inl format)
      · exact operands_kept lt moved room clean refers (.inr format)
      · exact absurd jumps (other name)

end Linked

end Instruction

/-! ## A source -/

/-- The line of a `nop`. -/
def SourceLine.nop (number : Nat) : SourceLine :=
  { number, keyword := some "nop" }

/-- Lines behind this one, each with the number of the next line. -/
def SourceLine.behindNop (number : Nat) (lines : List SourceLine) : List SourceLine :=
  .nop number :: lines.map (renumber (· + 1))

/-- The instruction of a `nop`. -/
def Instruction.nop (number : Nat) : Instruction :=
  { opcode := .nop, operands := .none, line := some number }

namespace SourceLine

variable (number : Nat)

theorem ofLine_nop :
    ∃ warnings, Request.ofLine (.nop number) =
      .item .text { result := .ok (.instruction .nop .none), warnings } := by
  have written : (nop number).keyword = some "nop" := rfl
  have accepted : (Operand.check .nop (nop number).operands.toList).value? = some ⟨.none, .none⟩ :=
    show (Operand.check .nop []).value? = _ by decide +kernel
  exact ⟨_, Request.ofLine_of_check written (by decide) (by decide +kernel) accepted⟩

theorem instruction?_nop : (nop number).instruction? = some (.nop number) := by
  obtain ⟨warnings, asked⟩ := ofLine_nop number
  unfold instruction? item?
  rw [asked]
  rfl

/-- The instructions of lines behind a `nop`, as far as there is room. -/
theorem placed_nop {lines : List SourceLine} (few : count lines .text ≤ 255) :
    placed (behindNop number lines) =
      .nop number :: (placed lines).map (Instruction.renumber (· + 1)) := by
  have later : (lines.map (renumber (· + 1))).filterMap instruction? =
      (lines.filterMap instruction?).map (Instruction.renumber (· + 1)) := by
    rw [List.filterMap_map, List.map_filterMap]
    congr 1
    funext line
    exact instruction?_renumber _ line
  have fits : (lines.filterMap instruction?).length ≤ 255 := few
  unfold placed behindNop
  rw [List.filterMap_cons, instruction?_nop, later]
  dsimp only
  rw [List.take_succ_cons, ← List.map_take, List.take_of_length_le fits,
    List.take_of_length_le (Nat.le_succ_of_le fits)]

end SourceLine

namespace Layout

theorem behind_nop (number : Nat) : Behind 1 {} (({} : Layout).place (.nop number)) := by
  obtain ⟨warnings, asked⟩ := SourceLine.ofLine_nop number
  have asks : (SourceLine.nop number).region? = some .text :=
    SourceLine.region?_eq_some_iff.mpr ⟨_, asked⟩
  have admits : ({} : Layout).Admits (.nop number) := by
    refine ⟨?_, nofun⟩
    rw [asked]
    rfl
  refine { size := ?size, data := ?data, labels := ?labels, waiting := ?waiting, silent := ?silent }
  case size =>
    rw [size_place, SourceLine.instruction?_nop]
    rfl
  case data =>
    rw [data_place, SourceLine.values_of_text asks]
    rfl
  case labels =>
    intro name
    rw [get?_place admits asks]
    rfl
  case waiting => rw [(labels_place_of_item asks).2]
  case silent => exact errors_place_eq_empty_iff.mpr ⟨rfl, admits⟩

/-- Lines without errors leave the same behind a `nop`, if there is room for one more
instruction. -/
theorem behind_ofLines_nop {lines : List SourceLine} (silent : (ofLines lines).log.errors = #[])
    (room : (ofLines lines).text.size ≤ 255) (number : Nat) :
    Behind 1 (ofLines lines) (ofLines (SourceLine.behindNop number lines)) := by
  unfold ofLines at silent room ⊢
  rw [errors_finish] at silent
  exact ((behind_nop number).foldl_place silent (Nat.succ_le_succ room) (· + 1)).finish

end Layout

namespace Program

open SourceLine (behindNop placed)

variable {lines : List SourceLine} {program : Program}

section Behind

variable (h : ofLines lines = .ok program) (room : program.text.size ≤ 255) (number : Nat)

include h room

/-- Labels stand for items that have room behind one more instruction. -/
theorem exists_index_of_get? (name : String) (address : Address)
    (defined : program.labels.get? name = some address) :
    ∃ (region : Region) (index : Nat), region.behind 1 index < 256 ∧
      address = region.addressOf index := by
  have size := size_text h
  obtain ⟨silent, -, rfl⟩ := ofLines_eq_ok h
  have sound := Layout.sound_ofLines lines
  rcases sound.placed silent _ (LabelTable.get?_eq_some_iff.mp defined) with
    ⟨index, lt, eq⟩ | ⟨index, lt, eq⟩
  · exact ⟨.text, index, Nat.succ_lt_succ (by omega), eq⟩
  · exact ⟨.data, index, Nat.lt_of_lt_of_le lt sound.dense.placed_le, eq⟩

theorem layout_behind_nop :
    Layout.Behind 1 (Layout.ofLines lines) (Layout.ofLines (behindNop number lines)) := by
  obtain ⟨silent, -, -⟩ := ofLines_eq_ok h
  exact Layout.behind_ofLines_nop silent (size_text h ▸ room) number

theorem labels_behind_nop (name : String) :
    (Layout.ofLines (behindNop number lines)).labels.get? name =
      (program.labels.get? name).map (Address.behind 1) := by
  obtain ⟨-, -, made⟩ := ofLines_eq_ok h
  rw [(layout_behind_nop h room number).labels, made]

theorem placed_behind_nop :
    placed (behindNop number lines) =
      .nop number :: (placed lines).map (Instruction.renumber (· + 1)) := by
  apply SourceLine.placed_nop
  have counted : (Layout.ofLines lines).text.size = _ := Layout.size_foldl_place lines
  have size := size_text h
  omega

theorem lt_of_placed {index : Nat} {written : Instruction}
    (placed : (placed lines)[index]? = some written) : index < 255 := by
  have found := get?_text h index
  rw [placed, Option.map_some] at found
  exact Nat.lt_of_lt_of_le (TextStore.lt_size_of_get? found) room

/-- Behind a `nop`, every reference can still be linked. -/
theorem exists_behind_nop :
    ∃ relocated, ofLines (behindNop number lines) = .ok relocated := by
  refine exists_ofLines (layout_behind_nop h room number).silent fun index written found => ?_
  rw [placed_behind_nop h room] at found
  cases index with
  | zero =>
    obtain rfl := Option.some.inj found
    exact Instruction.linkError?_of_unlabelled rfl
  | succ index =>
    rw [List.getElem?_cons_succ, List.getElem?_map, Option.map_eq_some_iff] at found
    obtain ⟨origin, placed, rfl⟩ := found
    rw [Instruction.linkError?_layAt_renumber,
      Instruction.linkError?_behind (lt_of_placed h room placed) (labels_behind_nop h room number)
        (exists_index_of_get? h room) (clean_of_placed h placed)]
    rfl

/-- Behind a `nop`, lines still assemble if there is room for one more instruction. The `nop` comes
first, and after it the instructions that were there, each relocated by one. Labels of instructions
move with them, data and its labels stay. -/
theorem relocated_behind_nop :
    ∃ relocated, ofLines (behindNop number lines) = .ok relocated ∧
      relocated.text.size = program.text.size + 1 ∧
      relocated.text.get? 0 = some
        { opcode := .nop, operands := .none, line := some number, address := 0x00400000,
          assembled := true } ∧
      (∀ index inst, program.text.get? index = some inst →
        ∃ written moved, (placed lines)[index]? = some written ∧
          relocated.text.get? (index + 1) = some moved ∧ written.Relocated inst moved) ∧
      relocated.data = program.data ∧
      ∀ name, relocated.labels.get? name = (program.labels.get? name).map fun address =>
        if Region.text.Supports address.toNat then address + 4 else address := by
  obtain ⟨relocated, ok⟩ := exists_behind_nop h room number
  have same := layout_behind_nop h room number
  have labels := labels_behind_nop h room number
  have text := get?_text ok
  rw [placed_behind_nop h room] at text
  obtain ⟨-, -, made⟩ := ofLines_eq_ok h
  obtain ⟨-, -, made'⟩ := ofLines_eq_ok ok
  refine ⟨relocated, ok, ?_, ?_, fun index inst found => ?_, ?_, fun name => ?_⟩
  · rw [size_text h, size_text ok, same.size]
  · rw [text, List.getElem?_cons_zero, Option.map_some]
    unfold Instruction.assembleAt
    rw [Instruction.link_of_unlabelled rfl]
    rfl
  · obtain ⟨written, placed, clean, rfl⟩ := written_of_get? h found
    obtain ⟨line, -, wrote⟩ := SourceLine.exists_line_of_placed placed
    have accepted := (SourceLine.accepted_of_instruction? wrote).1
    rw [text, List.getElem?_cons_succ, List.getElem?_map, placed, Option.map_some,
      Option.map_some, Instruction.assembleAt_renumber, made']
    exact ⟨written, _, rfl, rfl, Instruction.relocated_assembleAt (lt_of_placed h room placed)
      labels (exists_index_of_get? h room) clean accepted⟩
  · rw [made, made', same.data]
  · rw [made', labels]
    rfl

end Behind

/-- A jump to a label goes one instruction further, and a jump to a number, a branch and a load keep
their immediates. -/
theorem relocated_behind_nop_of_jumps :
    let source := "loop: lw r1, v\nbeq r1, r0, last\nj loop\nj 1048576\nlast: halt\nv: .word 7"
    let lines := SourceLine.ofSource source
    let immediates := fun program : Program =>
      program.text.instructions.map fun inst => inst.operands.operandImmediate?
    ∃ program relocated, ofLines lines = .ok program ∧
      ofLines (behindNop 1 lines) = .ok relocated ∧
      immediates program = #[some 0x10010000, some 2, some 1048576, some 1048576, none] ∧
      immediates relocated =
        #[none, some 0x10010000, some 2, some 1048577, some 1048576, none] ∧
      program.labels.get? "last" = some 0x00400010 ∧
      relocated.labels.get? "last" = some 0x00400014 ∧ relocated.data = program.data := by
  intro source lines immediates
  have parts : (ofLines lines).toOption.map
      (fun program => (immediates program, program.labels.get? "last", program.text.size)) =
        some
          (#[some 0x10010000, some 2, some 1048576, some 1048576, none], some 0x00400010, 5) := by
    decide +kernel
  have parts' : (ofLines (behindNop 1 lines)).toOption.map immediates =
      some #[none, some 0x10010000, some 2, some 1048577, some 1048576, none] := by
    decide +kernel
  cases h : ofLines lines with
  | error reasons =>
    rw [h] at parts
    cases parts
  | ok program =>
    rw [h] at parts
    obtain ⟨before, rest⟩ := Prod.mk.inj (Option.some.inj parts)
    obtain ⟨last, size⟩ := Prod.mk.inj rest
    obtain ⟨relocated, ok, -, -, -, data, labels⟩ := relocated_behind_nop h (by omega) 1
    rw [ok] at parts'
    refine ⟨program, relocated, rfl, ok, before, Option.some.inj parts', last, ?_, data⟩
    rw [labels, last]
    decide

end Program

end TinyMips
