import TinyMips.Proofs.Assembly.Capacity
import TinyMips.Proofs.Assembly.Renumber

/-!
# Lines behind more instructions

Lines without errors do the same to two layouts of which one has more instructions, up to the
addresses of instructions. With no more instructions, they do the same to layouts that hold the
same:

* **labels** — the labels of a line without errors get the address that is free for its item
  (`Layout.get?_place`);
* **layouts** — the difference of two layouts stays the same from line to line, as long as there is
  room for all instructions (`Layout.Behind`, `Layout.Behind.place`,
  `Layout.Behind.foldl_place`).
-/

namespace TinyMips

/-! ## Labels -/

namespace Layout

variable {layout : Layout} {line : SourceLine} {region : Region}

/-- The label of an admitted line waits after the others. -/
theorem names_stage (admits : layout.Admits line) :
    (layout.stage line).waiting.map WaitingLabel.name =
      layout.waiting.map WaitingLabel.name ++ line.label.toList := by
  rw [waiting_stage, List.map_append]
  unfold newLabel?
  cases labelled : line.label with
  | none => rfl
  | some name => simp [admits.label name labelled]

end Layout

/-- A name that is not in the table is found after a definition exactly if it is defined. -/
theorem LabelTable.get?_foldl_define (labels : List WaitingLabel) (table : LabelTable)
    (address : Address) (name : String) :
    (labels.foldl (fun table label => table.define label.name address) table).get? name =
      (table.get? name).or
        (if name ∈ labels.map WaitingLabel.name then some address else none) := by
  induction labels generalizing table with
  | nil => simp
  | cons label rest ih =>
    rw [List.foldl_cons, ih, get?_define]
    by_cases same : name = label.name
    · subst same
      cases table.get? label.name <;> simp
    · simp [same]

namespace Layout

variable {layout : Layout} {line : SourceLine} {region : Region}

theorem get?_settle (address? : Option Address) (name : String) :
    (layout.settle address?).labels.get? name =
      (layout.labels.get? name).or
        (if name ∈ layout.waiting.map WaitingLabel.name then address? else none) := by
  cases address? with
  | none => simp [settle]
  | some address => exact LabelTable.get?_foldl_define _ _ _ _

/-- The labels of an admitted line and those that waited for it get the address that is free for
its item. -/
theorem get?_place (admits : layout.Admits line) (asks : line.region? = some region)
    (name : String) :
    (layout.place line).labels.get? name =
      (layout.labels.get? name).or
        (if name ∈ layout.waiting.map WaitingLabel.name ++ line.label.toList then
          layout.free? region
        else none) := by
  rw [(labels_place_of_item asks).1, get?_settle, labels_stage, names_stage admits]

end Layout

/-! ## Layouts with more instructions -/

/-- The index of an item when there are more instructions in front: that of an instruction is
higher, that of data stays. -/
def Region.behind (count : Nat) : Region → Nat → Nat
  | .text, index => index + count
  | .data, index => index

/-- Where an item at an address lies when there are more instructions in front: an instruction is
further down, and data stays where it is. -/
def Address.behind (count : Nat) (address : Address) : Address :=
  if Region.text.Supports address.toNat then address + 4 * UInt64.ofNat count else address

theorem Address.behind_zero : behind 0 = id := by
  funext address
  unfold behind
  split
  · exact UInt64.add_zero address
  · rfl

theorem Address.behind_addressOf (count : Nat) (region : Region) {index : Nat}
    (lt : index < 256) :
    behind count (region.addressOf index) = region.addressOf (region.behind count index) := by
  unfold behind
  cases region with
  | text =>
    have sum : Region.text.base + (index + count) * Region.text.elementSize =
        Region.text.base + index * Region.text.elementSize + 4 * count := by
      simp only [Region.elementSize]
      omega
    rw [if_pos (Region.supports_addressOf .text lt)]
    unfold Region.addressOf Region.behind
    rw [sum, UInt64.ofNat_add _ (4 * count), UInt64.ofNat_mul]
    rfl
  | data =>
    have outside : ¬Region.text.Supports (Region.data.addressOf index).toNat := by
      rw [Region.supports_text_iff, Region.toNat_addressOf .data (by omega)]
      simp only [Region.base, Region.elementSize]
      omega
    rw [if_neg outside]
    rfl

namespace Layout

/-- Whether two layouts without errors hold the same, but for a number of more instructions in the
second one. -/
structure Behind (count : Nat) (layout behind : Layout) : Prop where
  size : behind.text.size = layout.text.size + count
  data : behind.data = layout.data
  labels (name : String) :
    behind.labels.get? name = (layout.labels.get? name).map (Address.behind count)
  waiting : behind.waiting.map WaitingLabel.name = layout.waiting.map WaitingLabel.name
  silent : behind.log.errors = #[]

theorem size_place (layout : Layout) (line : SourceLine) :
    (layout.place line).text.size =
      min 256 (layout.text.size + line.instruction?.toList.length) := by
  rw [text_place, TextStore.size_extend]

namespace Behind

variable {count : Nat} {layout behind : Layout} {line : SourceLine} {region : Region}

theorem isTaken (h : Behind count layout behind) (name : String) :
    behind.isTaken name = layout.isTaken name := by
  have waits := congrArg (fun names => names.any (· == name)) h.waiting
  rw [List.any_map, List.any_map] at waits
  unfold Layout.isTaken LabelTable.contains
  rw [h.labels, Option.isSome_map]
  exact congrArg _ waits

theorem admits (h : Behind count layout behind) (admits : layout.Admits line)
    (number : Nat → Nat) : behind.Admits (line.renumber number) where
  accepted := admits.accepted
  label name labelled := by
    rw [h.isTaken]
    exact admits.label name labelled

/-- The addresses that are free differ as those of labels do. -/
theorem free? (h : Behind count layout behind)
    (room : region = .text → layout.text.size < 256 → layout.text.size + count < 256) :
    behind.free? region = (layout.free? region).map (Address.behind count) := by
  cases region with
  | text =>
    show behind.text.free? = layout.text.free?.map _
    rw [TextStore.free?_eq, TextStore.free?_eq, h.size]
    by_cases lt : layout.text.size < 256
    · rw [if_pos lt, if_pos (room rfl lt), Option.map_some, Address.behind_addressOf _ _ lt]
      rfl
    · rw [if_neg lt, if_neg (by omega)]
      rfl
  | data =>
    show behind.data.free? = layout.data.free?.map _
    rw [h.data, DataStore.free?_eq]
    split
    · next lt =>
      rw [Option.map_some, Address.behind_addressOf _ _ lt]
      rfl
    · rfl

/-- A line without an error keeps the difference, as long as there is room for its instruction. -/
theorem place (h : Behind count layout behind) (silent : (layout.place line).log.errors = #[])
    (room : (layout.place line).text.size + count ≤ 256) (number : Nat → Nat) :
    Behind count (layout.place line) (behind.place (line.renumber number)) := by
  have admits := (errors_place_eq_empty_iff.mp silent).2
  have admits' := h.admits admits number
  rw [size_place] at room
  have size : (behind.place (line.renumber number)).text.size =
      (layout.place line).text.size + count := by
    rw [size_place, size_place, h.size, SourceLine.length_instruction?_renumber]
    omega
  have data : (behind.place (line.renumber number)).data = (layout.place line).data := by
    rw [data_place, data_place, h.data]
    rfl
  have silent' := errors_place_eq_empty_iff.mpr ⟨h.silent, admits'⟩
  cases asks : line.region? with
  | none =>
    have asks' : (line.renumber number).region? = none := asks
    obtain ⟨labels, waiting⟩ := @labels_place_of_nothing layout line asks
    obtain ⟨labels', waiting'⟩ := @labels_place_of_nothing behind (line.renumber number) asks'
    refine ⟨size, data, ?_, ?_, silent'⟩
    · rw [labels, labels']
      exact h.labels
    · rw [waiting, waiting', names_stage admits, names_stage admits', h.waiting]
      rfl
  | some region =>
    have asks' : (line.renumber number).region? = some region := asks
    refine ⟨size, data, fun name => ?_, ?_, silent'⟩
    · have free : behind.free? region = (layout.free? region).map (Address.behind count) := by
        apply h.free?
        rintro rfl lt
        -- an admitted line of this region adds an instruction
        have adds := (SourceLine.isSome_instruction?_iff admits.accepted).mpr asks
        obtain ⟨inst, eq⟩ := Option.isSome_iff_exists.mp adds
        rw [eq, Option.toList_some, List.length_singleton] at room
        omega
      have label : (line.renumber number).label = line.label := rfl
      rw [get?_place admits asks, get?_place admits' asks', h.labels, h.waiting, label, free,
        Option.map_or]
      split <;> rfl
    · rw [(labels_place_of_item asks).2, (labels_place_of_item asks').2]

theorem foldl_place {lines : List SourceLine} (h : Behind count layout behind)
    (silent : (lines.foldl Layout.place layout).log.errors = #[])
    (room : (lines.foldl Layout.place layout).text.size + count ≤ 256) (number : Nat → Nat) :
    Behind count (lines.foldl Layout.place layout)
      ((lines.map (SourceLine.renumber number)).foldl Layout.place behind) := by
  induction lines generalizing layout behind with
  | nil => exact h
  | cons line rest ih =>
    have here : (layout.place line).text.size + count ≤ 256 := by
      rw [List.foldl_cons, text_foldl_place, TextStore.size_foldl_push] at room
      have := (layout.place line).text.size_le
      unfold TextStore.size at *
      omega
    exact ih (h.place (errors_eq_empty_of_foldl_place silent) here number) silent room

theorem finish (h : Behind count layout behind) : Behind count layout.finish behind.finish where
  size := h.size
  data := h.data
  labels := h.labels
  waiting := rfl
  silent := by
    rw [errors_finish]
    exact h.silent

end Behind

end Layout

/-! ## Renumbered instructions -/

namespace Instruction

variable (number : Nat → Nat) (written : Instruction) (index : Nat) (labels : LabelTable)

theorem linkError?_layAt_renumber :
    ((written.renumber number).layAt index).linkError? labels =
      ((written.layAt index).linkError? labels).map (LogEntry.renumber number) :=
  linkError?_renumber number (written.layAt index) labels

theorem assembleAt_renumber :
    (written.renumber number).assembleAt index labels =
      (written.assembleAt index labels).renumber number := by
  have linked := link_renumber number (written.layAt index) labels
  unfold assembleAt
  rw [show (written.renumber number).layAt index = (written.layAt index).renumber number from rfl,
    linked]
  rfl

end Instruction

end TinyMips
