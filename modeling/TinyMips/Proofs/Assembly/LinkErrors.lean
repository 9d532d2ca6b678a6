import TinyMips.Proofs.Assembly.Definition
import TinyMips.Proofs.Assembly.Reference

/-!
# The errors of linking

The addresses of a label table are those of storage indices, also where an error left a label
without an item of its own. So a reference fails for one of two reasons only: its label is not in
the table, or it was attached to an item of the other region, whose addresses are out of range
(`Instruction.linkError?_of_defined`). Branch offsets always fit, as the stores are small
(`Instruction.fits16_branchOffset`).
-/

namespace TinyMips

namespace Instruction

/-! ## One reference -/

variable {inst : Instruction} {labels : LabelTable} {name : String}

/-- Two instructions of a store are less than a branch offset apart. -/
theorem fits16_branchOffset {own target : Nat} (hown : own < 256) (htarget : target < 256) :
    (branchOffset (Region.text.addressOf own) (Region.text.addressOf target)).fits16 = true := by
  rw [Word.fits16_iff, toInt_branchOffset (Region.supports_addressOf _ hown)
    (Region.supports_addressOf _ htarget), Region.toNat_addressOf_text (by omega),
    Region.toNat_addressOf_text (by omega)]
  omega

/-- What linking an instruction reports is what the immediate of its label reports. -/
theorem linkError?_of_label (refers : inst.label? = some name) :
    inst.linkError? labels =
      match inst.labelImmediate labels name with
      | .ok _ => none
      | .error message => some { line := inst.line, message } := by
  unfold linkError? link?
  rw [refers, Option.map_some]
  cases inst.labelImmediate labels name <;> rfl

theorem linkError?_of_missing (refers : inst.label? = some name)
    (missing : labels.get? name = none) :
    inst.linkError? labels = some { line := inst.line, message := .labelNotFound name } := by
  rw [linkError?_of_label refers]
  unfold labelImmediate
  rw [missing]

/-- A label of the right region is linked, one of the other region is out of range. -/
theorem linkError?_of_defined {own index : Nat} (hown : own < 256) (lt : index < 256)
    (placed : inst.address = Region.text.addressOf own) (refers : inst.label? = some name)
    {region : Region} (defined : labels.get? name = some (region.addressOf index)) :
    inst.linkError? labels =
      if region = labelRegion inst.opcode then none
      else some
        { line := inst.line
          message := .labelAddress name
            (.outOfRange (labelRegion inst.opcode) (region.addressOf index).toInt64) } := by
  rw [linkError?_of_label refers]
  unfold labelImmediate
  rw [defined]
  dsimp only
  by_cases same : region = labelRegion inst.opcode
  · rw [if_pos same, same, Region.check_addressOf _ lt]
    dsimp only
    by_cases branches : inst.opcode.format = .branch
    · have text : labelRegion inst.opcode = .text := by
        unfold labelRegion
        rw [branches]
        rfl
      rw [if_pos branches, placed, text, if_pos (fits16_branchOffset hown lt)]
    · rw [if_neg branches]
  · rw [if_neg same, Region.check_addressOf_of_ne same lt]

theorem linkError?_of_unlabelled (h : inst.label? = none) : inst.linkError? labels = none := by
  unfold linkError? link?
  rw [h]
  rfl

end Instruction

/-! ## All references -/

namespace Layout

open SourceLine (Accepts Attaches FirstItem next?)

/-- An instruction of a layout stands at the address of its index. -/
theorem address_of_mem {lines : List SourceLine} {inst : Instruction}
    (mem : inst ∈ (ofLines lines).text.instructions) :
    ∃ index < 256, inst.address = Region.text.addressOf index := by
  obtain ⟨index, found⟩ := Array.mem_iff_getElem?.mp mem
  have stored : (ofLines lines).text.get? index = some inst := found
  have lt := TextStore.lt_of_get? stored
  rw [text_ofLines, TextStore.get?_foldl_push, Option.map_eq_some_iff] at stored
  obtain ⟨written, -, rfl⟩ := stored
  exact ⟨index, lt, rfl⟩

/-- A definition attaches its label to the address of a storage index. -/
theorem index_of_attaches {lines : List SourceLine} {i : Nat} {region : Region}
    {entry : String × Address} (attaches : Attaches lines i region entry) :
    ∃ index < 256, entry.2 = region.addressOf index := by
  obtain ⟨_, j, _, -, -, -, next⟩ := attaches
  unfold next? at next
  split at next
  · next room => exact ⟨_, room, (Option.some.inj next).symm⟩
  · contradiction

section Reports

variable {lines : List SourceLine} {inst : Instruction} {name : String}

theorem report_of_attached (mem : inst ∈ (ofLines lines).text.instructions)
    (refers : inst.label? = some name) {i : Nat} {region : Region} {address : Address}
    (accepts : Accepts lines i name) (attaches : Attaches lines i region (name, address)) :
    (ofLines lines).labels.get? name = some address ∧
      inst.linkError? (ofLines lines).labels =
        if region = Instruction.labelRegion inst.opcode then none
        else some
          { line := inst.line
            message := .labelAddress name
              (.outOfRange (Instruction.labelRegion inst.opcode) address.toInt64) } := by
  have defined := get?_ofLines_iff.mpr ⟨i, region, accepts, attaches⟩
  obtain ⟨own, hown, placed⟩ := address_of_mem mem
  obtain ⟨index, lt, rfl⟩ := index_of_attaches attaches
  exact ⟨defined, Instruction.linkError?_of_defined hown lt placed refers defined⟩

theorem report_of_unattached (refers : inst.label? = some name)
    (unattached : ∀ i region address, Accepts lines i name →
      ¬Attaches lines i region (name, address)) :
    (ofLines lines).labels.get? name = none ∧
      inst.linkError? (ofLines lines).labels =
        some { line := inst.line, message := .labelNotFound name } := by
  have missing : (ofLines lines).labels.get? name = none := by
    rw [Option.eq_none_iff_forall_ne_some]
    intro address defined
    obtain ⟨i, region, accepts, attaches⟩ := get?_ofLines_iff.mp defined
    exact unattached i region address accepts attaches
  exact ⟨missing, Instruction.linkError?_of_missing refers missing⟩

/-- A definition attaches its label unless its first item has no room or there is no item. -/
theorem next?_eq_none_of_unattached {i j : Nat} (accepts : Accepts lines i name)
    (unattached : ∀ region address, ¬Attaches lines i region (name, address))
    {item : SourceLine} {region : Region} (first : FirstItem lines i j item region) :
    next? (lines.take j) region = none := by
  obtain ⟨line, found, labelled⟩ := accepts.defines
  rw [Option.eq_none_iff_forall_ne_some]
  intro address next
  exact unattached region address ⟨line, j, item, found, labelled, first, next⟩

/-- A reference that is reported is out of range or has no attached definition. -/
theorem report_cases (mem : inst ∈ (ofLines lines).text.instructions) {entry : LogEntry}
    (reported : inst.linkError? (ofLines lines).labels = some entry) :
    (∃ name region value, entry.message = .labelAddress name (.outOfRange region value)) ∨
      ∃ name, entry.message = .labelNotFound name ∧
        ∀ i region address, Accepts lines i name → ¬Attaches lines i region (name, address) := by
  cases refers : inst.label? with
  | none =>
    rw [Instruction.linkError?_of_unlabelled refers] at reported
    contradiction
  | some name =>
    by_cases attached : ∃ i region address,
        Accepts lines i name ∧ Attaches lines i region (name, address)
    · obtain ⟨i, region, address, accepts, attaches⟩ := attached
      rw [(report_of_attached mem refers accepts attaches).2] at reported
      split at reported
      · contradiction
      · obtain rfl := Option.some.inj reported
        exact .inl ⟨_, _, _, rfl⟩
    · have unattached : ∀ i region address, Accepts lines i name →
          ¬Attaches lines i region (name, address) := by
        intro i region address accepts attaches
        exact attached ⟨i, region, address, accepts, attaches⟩
      rw [(report_of_unattached refers unattached).2] at reported
      obtain rfl := Option.some.inj reported
      exact .inr ⟨name, rfl, unattached⟩

end Reports

/-- What linking reports of the label references of a layout, instruction by instruction: nothing
where the label was attached to an item of the region that the opcode refers to, also if that item
was refused; that its address is out of range where it was attached to an item of the other region;
that it is not found where none of its accepted definitions was attached. There are no other
reports, and a label is not found only if each of its accepted definitions was dropped for lack of
room or left dangling. -/
theorem link_reports (lines : List SourceLine) :
    let layout := ofLines lines
    let report := fun inst : Instruction => inst.linkError? layout.labels
    layout.link.log.errors = layout.log.errors ++ layout.text.instructions.filterMap report ∧
    (∀ inst ∈ layout.text.instructions,
      (inst.label? = none → report inst = none) ∧
      ∀ name, inst.label? = some name →
        (∀ i region address, Accepts lines i name → Attaches lines i region (name, address) →
          layout.labels.get? name = some address ∧
          report inst =
            if region = Instruction.labelRegion inst.opcode then none
            else some
              { line := inst.line
                message := .labelAddress name
                  (.outOfRange (Instruction.labelRegion inst.opcode) address.toInt64) }) ∧
        ((∀ i region address, Accepts lines i name →
            ¬Attaches lines i region (name, address)) →
          layout.labels.get? name = none ∧
          report inst = some { line := inst.line, message := .labelNotFound name })) ∧
    ∀ entry ∈ layout.text.instructions.filterMap report,
      (∃ name region value, entry.message = .labelAddress name (.outOfRange region value)) ∨
      ∃ name, entry.message = .labelNotFound name ∧
        ∀ i, Accepts lines i name → ∀ j item region, FirstItem lines i j item region →
          next? (lines.take j) region = none := by
  intro layout report
  refine ⟨rfl, fun inst mem => ⟨Instruction.linkError?_of_unlabelled, fun name refers =>
    ⟨fun i region address => report_of_attached mem refers, report_of_unattached refers⟩⟩, ?_⟩
  intro entry mem
  obtain ⟨inst, placed, reported⟩ := Array.mem_filterMap.mp mem
  rcases report_cases placed reported with range | ⟨name, missing, unattached⟩
  · exact .inl range
  · refine .inr ⟨name, missing, fun i accepts j item region first => ?_⟩
    have none := fun region address => unattached i region address accepts
    exact next?_eq_none_of_unattached accepts none first

/-- The label of a refused line is no second error, but the wrong region and a missing label
are. -/
theorem link_reports_of_refused :
    let lines : List SourceLine :=
      [{ number := 1, label := some "bad", keyword := some "foo" },
        { number := 2, keyword := some "j", operands := "bad" },
        { number := 3, keyword := some "lw", operands := "r1, bad" },
        { number := 4, keyword := some "beq", operands := "r0, r0, gone" }]
    let layout := ofLines lines
    let jump : Instruction :=
      { opcode := .j, operands := .jump (.label "bad"), line := some 2, address := 0x00400000 }
    jump ∈ layout.text.instructions ∧ Accepts lines 0 "bad" ∧
      Attaches lines 0 .text ("bad", 0x00400000) ∧ jump.linkError? layout.labels = none ∧
      layout.link.log.errors = layout.log.errors ++
        #[{ line := some 3
            message := .labelAddress "bad" (.outOfRange .data 0x00400000) },
          { line := some 4, message := .labelNotFound "gone" }] := by
  intro lines layout jump
  have mem : jump ∈ layout.text.instructions := by decide +kernel
  have accepts : Accepts lines 0 "bad" := ⟨⟨_, rfl, rfl⟩, by decide, by decide⟩
  have first : FirstItem lines 0 0 { number := 1, label := some "bad", keyword := some "foo" }
      .text :=
    ⟨Nat.le_refl _, rfl, by decide, by omega⟩
  have attaches : Attaches lines 0 .text ("bad", 0x00400000) :=
    ⟨_, 0, _, rfl, rfl, first, by decide⟩
  have reports : layout.text.instructions.filterMap (fun inst => inst.linkError? layout.labels) =
      #[{ line := some 3
          message := .labelAddress "bad" (.outOfRange .data 0x00400000) },
        { line := some 4, message := .labelNotFound "gone" }] := by
    decide +kernel
  obtain ⟨all, each, -⟩ := link_reports lines
  have silent := (((each jump mem).2 "bad" rfl).1 0 .text 0x00400000 accepts attaches).2
  refine ⟨mem, accepts, attaches, silent, ?_⟩
  rw [← reports]
  exact all

end Layout

end TinyMips
