import Mathlib.Data.List.Infix
import TinyMips.Proofs.Assembly.Attachment
import TinyMips.Proofs.Assembly.Program

/-!
# Prefixes of a source

Lines are placed in one pass and linked at its end, over all labels there are by then. Later lines
move nothing that earlier ones decided:

* **labels** — placing only adds to the table of labels (`Layout.extends_foldl_place`), and a
  reference that was linked is linked to the same in a larger table (`Instruction.link_of_extends`);
* **programs** — the program of some lines is the beginning of the program of these and more
  (`Program.Extends`, `Program.extends_of_append`).
-/

namespace TinyMips

/-! ## Labels -/

namespace Layout

theorem extends_settle (layout : Layout) (address : Option Address) :
    layout.labels.Extends (layout.settle address).labels := by
  cases address with
  | none => exact .refl _
  | some address =>
    show layout.labels.Extends
      (layout.waiting.foldl (fun table label => table.define label.name address) layout.labels)
    generalize layout.labels = table
    induction layout.waiting generalizing table with
    | nil => exact .refl _
    | cons label rest ih => exact (table.extends_define label.name address).trans (ih _)

/-- A line keeps the labels that are defined, whether it attaches labels or drops them. -/
theorem extends_place (layout : Layout) (line : SourceLine) :
    layout.labels.Extends (layout.place line).labels := by
  cases asks : line.region? with
  | none =>
    rw [(labels_place_of_nothing asks).1]
    exact .refl _
  | some region =>
    have staged : (layout.stage line).labels = layout.labels := labels_stage
    rw [(labels_place_of_item asks).1, ← staged]
    exact extends_settle _ _

theorem extends_foldl_place (lines : List SourceLine) (layout : Layout) :
    layout.labels.Extends (lines.foldl place layout).labels := by
  induction lines generalizing layout with
  | nil => exact .refl _
  | cons line rest ih => exact (layout.extends_place line).trans (ih _)

end Layout

namespace Instruction

variable {inst : Instruction} {labels larger : LabelTable}

theorem labelImmediate_of_extends (more : labels.Extends larger) {name : String} {value : Word}
    (linked : inst.labelImmediate labels name = .ok value) :
    inst.labelImmediate larger name = .ok value := by
  obtain ⟨target, defined, -⟩ := labelImmediate_eq_ok linked
  unfold labelImmediate at linked ⊢
  rw [defined] at linked
  rw [more name target defined]
  exact linked

/-- A reference that is linked stays as it is in a larger table. -/
theorem link_of_extends (more : labels.Extends larger) (clean : inst.linkError? labels = none) :
    inst.link larger = inst.link labels := by
  cases refers : inst.label? with
  | none => rw [link_of_unlabelled refers, link_of_unlabelled refers]
  | some name =>
    obtain ⟨value, linked, eq⟩ := link_of_label refers clean
    rw [eq]
    unfold link link?
    rw [refers, Option.map_some, labelImmediate_of_extends more linked]

end Instruction

/-! ## Programs -/

/-- Whether a program is the beginning of another one. -/
structure Program.Extends (program later : Program) : Prop where
  /-- The instructions come first, with their immediates, addresses and lines. -/
  text : program.text.instructions.toList <+: later.text.instructions.toList
  placed : program.data.placed ≤ later.data.placed
  /-- The placed values are in the first slots. -/
  data (index : Nat) (lt : index < program.data.placed) :
    ∃ value, program.data.slots[index]? = some (some value) ∧
      later.data.slots[index]? = some (some value)
  labels : program.labels.Extends later.labels

namespace Program

variable {lines more : List SourceLine} {program later : Program}

theorem labels_of_append (h : ofLines lines = .ok program)
    (h' : ofLines (lines ++ more) = .ok later) : program.labels.Extends later.labels := by
  obtain ⟨-, -, rfl⟩ := ofLines_eq_ok h
  obtain ⟨-, -, rfl⟩ := ofLines_eq_ok h'
  show (lines.foldl Layout.place {}).labels.Extends ((lines ++ more).foldl Layout.place {}).labels
  rw [List.foldl_append]
  exact Layout.extends_foldl_place more _

theorem data_of_append (h : ofLines lines = .ok program)
    (h' : ofLines (lines ++ more) = .ok later) :
    later.data = (more.flatMap SourceLine.values).foldl DataStore.push program.data := by
  obtain ⟨-, -, rfl⟩ := ofLines_eq_ok h
  obtain ⟨-, -, rfl⟩ := ofLines_eq_ok h'
  dsimp only
  rw [Layout.data_ofLines, Layout.data_ofLines, List.flatMap_append, List.foldl_append]

/-- An instruction of the earlier program is that of the later one at its index. -/
theorem get?_text_of_append (h : ofLines lines = .ok program)
    (h' : ofLines (lines ++ more) = .ok later) {index : Nat} {inst : Instruction}
    (found : program.text.get? index = some inst) : later.text.get? index = some inst := by
  obtain ⟨written, placed, clean, rfl⟩ := written_of_get? h found
  have first : SourceLine.placed lines <+: SourceLine.placed (lines ++ more) := by
    unfold SourceLine.placed
    rw [List.filterMap_append]
    exact List.IsPrefix.take (List.prefix_append _ _) 256
  obtain ⟨lt, rfl⟩ := List.getElem?_eq_some_iff.mp placed
  rw [get?_text h', List.prefix_iff_getElem?.mp first index lt, Option.map_some]
  unfold Instruction.assembleAt
  rw [Instruction.link_of_extends (labels_of_append h h') clean]

/-- Nothing moves when lines are added at the end. -/
theorem extends_of_append (h : ofLines lines = .ok program)
    (h' : ofLines (lines ++ more) = .ok later) : program.Extends later where
  text := by
    rw [List.prefix_iff_getElem?]
    intro index lt
    rw [Array.getElem?_toList]
    refine get?_text_of_append h h' ?_
    unfold TextStore.get?
    rw [← Array.getElem?_toList, List.getElem?_eq_getElem lt]
  placed := by
    have room := (dense_of_ofLines h).placed_le
    rw [data_of_append h h', DataStore.placed_foldl_push room]
    omega
  data index lt := by
    have dense := dense_of_ofLines h
    obtain ⟨value, slot⟩ := Option.isSome_iff_exists.mp ((dense.written index).mpr lt)
    refine ⟨value, Option.join_eq_some_iff.mp slot, Option.join_eq_some_iff.mp ?_⟩
    -- later values go into later slots
    rw [data_of_append h h', DataStore.slot_foldl_push dense.placed_le, if_neg (by omega)]
    exact slot
  labels := labels_of_append h h'

/-- A label that is left dangling gets an address from what is added, and one that is defined keeps
its own. -/
theorem extends_of_append_of_dangling :
    let lines := SourceLine.ofSource "v: .word 7\nlw r1, v\nlast:"
    let more := [SourceLine.ofText 4 "j last".toList, SourceLine.ofText 5 "w: .word 8".toList]
    ∃ program later, ofLines lines = .ok program ∧ ofLines (lines ++ more) = .ok later ∧
      program.labels.get? "last" = none ∧ later.labels.get? "last" = some 0x00400004 ∧
      program.Extends later := by
  intro lines more
  have labels :
      (ofLines lines).toOption.map (fun program => program.labels.get? "last") = some none ∧
        (ofLines (lines ++ more)).toOption.map (fun later => later.labels.get? "last") =
          some (some 0x00400004) := by
    decide +kernel
  cases h : ofLines lines with
  | error reasons =>
    rw [h] at labels
    exact absurd labels.1 nofun
  | ok program =>
    cases h' : ofLines (lines ++ more) with
    | error reasons =>
      rw [h'] at labels
      exact absurd labels.2 nofun
    | ok later =>
      rw [h, h'] at labels
      exact ⟨program, later, rfl, rfl, Option.some.inj labels.1, Option.some.inj labels.2,
        extends_of_append h h'⟩

end Program

end TinyMips
