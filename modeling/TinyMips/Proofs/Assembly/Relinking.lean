import TinyMips.Proofs.Assembly.Prefix
import TinyMips.Proofs.Assembly.Resolved

/-!
# Linking again

Linking may be repeated, with the same labels or with more of them, whatever the instructions are
and wherever they stand:

* **one instruction** — it has its label replaced, or it is reported and stays as it was; labels
  that are known in advance make no difference to a later linking with all of them
  (`Instruction.link_link_of_extends`, `Instruction.linkError?_link`);
* **stores** — the errors of a linking are those of the instructions that still refer to a label
  afterwards, one each and in order (`TextStore.forall₂_linkErrors`);
* **layouts** — `Layout.link_again` has what linking changes, and what linking again does.
-/

namespace TinyMips

namespace Instruction

variable {inst : Instruction} {labels larger : LabelTable}

/-! ## One instruction -/

/-- Whether an entry tells of an instruction that its label cannot be replaced, and why. -/
def IsRefused (inst : Instruction) (labels : LabelTable) (entry : LogEntry) : Prop :=
  entry.line = inst.line ∧
    ∃ name, inst.label? = some name ∧ inst.labelImmediate labels name = .error entry.message

theorem exists_withImmediate (operands : Operands) :
    ∃ imm, operands.withImmediate imm = operands := by
  cases operands with
  | none => exact ⟨.literal 0, rfl⟩
  | register => exact ⟨.literal 0, rfl⟩
  | immediate rs rt imm mode => exact ⟨imm, rfl⟩
  | jump target => exact ⟨target, rfl⟩

/-- Linking changes nothing but the immediate. -/
theorem exists_link_eq (inst : Instruction) (labels : LabelTable) :
    ∃ imm, inst.link labels = { inst with operands := inst.operands.withImmediate imm } := by
  unfold link
  split
  · next value linked => exact ⟨.literal value, rfl⟩
  · obtain ⟨imm, same⟩ := exists_withImmediate inst.operands
    refine ⟨imm, ?_⟩
    rw [same]

/-- An instruction whose label is reported stays as it was, and the report tells why. -/
theorem link_of_linkError {entry : LogEntry} (reported : inst.linkError? labels = some entry) :
    inst.link labels = inst ∧ inst.IsRefused labels entry := by
  cases refers : inst.label? with
  | none =>
    rw [linkError?_of_unlabelled refers] at reported
    contradiction
  | some name =>
    rw [linkError?_of_label refers] at reported
    cases refused : inst.labelImmediate labels name with
    | ok value =>
      rw [refused] at reported
      contradiction
    | error message =>
      rw [refused] at reported
      obtain rfl := Option.some.inj reported
      refine ⟨?_, rfl, name, refers, refused⟩
      simp [link, link?, refers, refused]

/-- Labels that are known in advance make no difference. -/
theorem link_link_of_extends (more : labels.Extends larger) :
    (inst.link labels).link larger = inst.link larger := by
  cases reported : inst.linkError? labels with
  | some entry => rw [(link_of_linkError reported).1]
  | none =>
    have unlabelled := linkError?_eq_none_iff.mp reported
    rw [link_of_unlabelled unlabelled, link_of_extends more reported]

/-- An instruction that was reported is reported again, and no other one is. -/
theorem linkError?_link : (inst.link labels).linkError? labels = inst.linkError? labels := by
  cases reported : inst.linkError? labels with
  | some entry => rw [(link_of_linkError reported).1, reported]
  | none => exact linkError?_of_unlabelled (linkError?_eq_none_iff.mp reported)

end Instruction

/-! ## Stores -/

namespace TextStore

variable (store : TextStore) {labels larger : LabelTable}

theorem link_link_of_extends (more : labels.Extends larger) :
    (store.link labels).link larger = store.link larger := by
  apply eq_of_instructions
  simp [link, map, Instruction.link_link_of_extends more]

theorem linkErrors_link : (store.link labels).linkErrors labels = store.linkErrors labels := by
  unfold linkErrors link map
  rw [Array.filterMap_map]
  congr 1
  funext inst
  exact Instruction.linkError?_link

/-- Each instruction that still refers to a label has one error, in order. -/
theorem forall₂_linkErrors :
    List.Forall₂ (fun inst entry => inst.IsRefused labels entry)
      ((store.link labels).instructions.toList.filter fun inst => inst.label?.isSome)
      (store.linkErrors labels).toList := by
  unfold linkErrors link map
  rw [Array.toList_map, Array.toList_filterMap]
  induction store.instructions.toList with
  | nil => exact .nil
  | cons inst rest ih =>
    rw [List.map_cons, List.filterMap_cons]
    cases reported : inst.linkError? labels with
    | none =>
      rw [List.filter_cons_of_neg (by simp [Instruction.linkError?_eq_none_iff.mp reported])]
      exact ih
    | some entry =>
      obtain ⟨kept, refused⟩ := Instruction.link_of_linkError reported
      obtain ⟨-, name, refers, -⟩ := id refused
      rw [kept, List.filter_cons_of_pos (by simp [refers])]
      exact .cons refused ih

end TextStore

namespace Layout

/-! ## Layouts -/

/-- Linking treats every instruction on its own and changes nothing but the immediates of those that
refer to a label; for each that still refers to one afterwards it adds an error that tells why, in
order, and nothing else changes. Linking again adds the same errors and changes no instruction.
Linking with more labels gives the same instructions whether or not they were linked before. -/
theorem link_again (layout : Layout) :
    let labels := layout.labels
    let linked := layout.link
    (∀ index, linked.text.get? index =
      (layout.text.get? index).map fun inst => inst.link labels) ∧
    (∀ inst : Instruction, (inst.label? = none → inst.link labels = inst) ∧
      ∃ imm, inst.link labels = { inst with operands := inst.operands.withImmediate imm }) ∧
    (∃ added : List LogEntry,
      linked = { layout with
        text := linked.text
        log := { layout.log with errors := layout.log.errors ++ added.toArray } } ∧
      List.Forall₂ (fun inst entry => inst.IsRefused labels entry)
        (linked.text.instructions.toList.filter fun inst => inst.label?.isSome) added ∧
      linked.link = { linked with
        log := { linked.log with errors := linked.log.errors ++ added.toArray } }) ∧
    ∀ larger, labels.Extends larger →
      { linked with labels := larger }.link.text = { layout with labels := larger }.link.text := by
  intro labels linked
  refine ⟨fun index => layout.text.get?_map _ index, fun inst => ?_, ?_, fun larger more => ?_⟩
  · exact ⟨Instruction.link_of_unlabelled, inst.exists_link_eq labels⟩
  · refine ⟨(layout.text.linkErrors labels).toList, rfl, layout.text.forall₂_linkErrors, ?_⟩
    have text : linked.text.link labels = linked.text :=
      layout.text.link_link_of_extends (.refl labels)
    have errors : linked.text.linkErrors labels = layout.text.linkErrors labels :=
      layout.text.linkErrors_link
    show { linked with
      text := linked.text.link labels
      log := { linked.log with errors := linked.log.errors ++ linked.text.linkErrors labels } } = _
    rw [text, errors]
  · exact layout.text.link_link_of_extends more

/-- A jump waits for a label that is defined later, and a branch to data is refused each time. -/
theorem link_again_of_later_label :
    let labels := LabelTable.empty.define "v" 0x10010000
    let larger := labels.define "last" 0x00400008
    let jump : Instruction := { opcode := .j, operands := .jump (.label "last"), line := some 1 }
    let branch : Instruction :=
      { opcode := .beq, operands := .immediate .zero .zero (.label "v") .plain, line := some 2 }
    let layout : Layout := { text := (TextStore.push {} jump).push branch, labels }
    labels.Extends larger ∧ layout.link.link.text = layout.link.text ∧
      layout.link.log.errors.map LogEntry.line = #[some 1, some 2] ∧
      layout.link.link.log.errors.map LogEntry.line = #[some 1, some 2, some 1, some 2] ∧
      { layout.link with labels := larger }.link.text =
        { layout with labels := larger }.link.text ∧
      ({ layout with labels := larger }.link.text.get? 0).map Instruction.label? = some none := by
  intro labels larger jump branch layout
  have more : labels.Extends larger := labels.extends_define _ _
  obtain ⟨-, -, ⟨added, -, -, again⟩, later⟩ := link_again layout
  refine ⟨more, ?_, by decide +kernel, by decide +kernel, later larger more, by decide +kernel⟩
  rw [again]

end Layout

end TinyMips
