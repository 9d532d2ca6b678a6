import TinyMips.Proofs.Assembly.Layout

/-!
# The warnings of a layout

A line warns, in this order, of what its check found, of a store that is too full for its item, and
of the labels that are dropped because the item that they wait for gets no address
(`Layout.warnings_place_of_item`). The end of the source warns of the labels that still wait
(`Layout.warnings_finish`). The warnings of a layout are these lists, line by line
(`Layout.warnings_ofLines`).
-/

namespace TinyMips

namespace Log

theorem warnings_foldl_warn {α : Type} (items : List α) (line : α → Option Nat)
    (message : α → Message) (log : Log) :
    (items.foldl (fun log item => log.warn (line item) (message item)) log).warnings.toList =
      log.warnings.toList ++
        items.map fun item => { line := line item, message := message item } := by
  induction items generalizing log with
  | nil => simp
  | cons item rest ih =>
    rw [List.foldl_cons, ih]
    simp [warn]

theorem warnings_foldl_error (messages : List Message) (line : Option Nat) (log : Log) :
    (messages.foldl (fun log message => log.error line message) log).warnings = log.warnings := by
  induction messages generalizing log with
  | nil => rfl
  | cons message rest ih => exact ih _

end Log

namespace Layout

variable (layout : Layout) (line : SourceLine)

/-! ## What a line warns about -/

/-- The warning that an item does not fit into its store. -/
def overflow : List LogEntry :=
  match line.item? with
  | some (.instruction ..) =>
    if layout.text.isFull = true then
      [{ line := some line.number, message := .textFull (line.keyword.getD "") }]
    else []
  | some (.words values) =>
    if Region.data.capacity - layout.data.placed < values.length then
      [{ line := some line.number, message := .dataFull }]
    else []
  | none => []

/-- The warnings about waiting labels whose item gets no address. -/
def dropped (waiting : List WaitingLabel) : Option Address → List LogEntry
  | some _ => []
  | none => waiting.map fun label =>
      { line := some label.line, message := .labelDropped label.name }

/-- What does not fit is an item of the region that the line asks for. -/
theorem message_of_mem_overflow {entry : LogEntry} (mem : entry ∈ layout.overflow line) :
    (line.region? = some .text ∧ entry.message = .textFull (line.keyword.getD "")) ∨
      (line.region? = some .data ∧ entry.message = .dataFull) := by
  unfold overflow at mem
  split at mem
  · next opcode operands own =>
    obtain ⟨region, asks, rfl, -⟩ := SourceLine.suits_of_item? own
    split at mem
    · exact .inl ⟨asks, congrArg LogEntry.message (List.mem_singleton.mp mem)⟩
    · nomatch mem
  · next values own =>
    obtain ⟨region, asks, rfl, -⟩ := SourceLine.suits_of_item? own
    split at mem
    · exact .inr ⟨asks, congrArg LogEntry.message (List.mem_singleton.mp mem)⟩
    · nomatch mem
  · nomatch mem

theorem message_of_mem_dropped {waiting : List WaitingLabel} {address : Option Address}
    {entry : LogEntry} (mem : entry ∈ dropped waiting address) :
    ∃ name, entry.message = .labelDropped name := by
  cases address with
  | some address => nomatch mem
  | none =>
    obtain ⟨label, -, rfl⟩ := List.mem_map.mp mem
    exact ⟨label.name, rfl⟩

/-- Storing depends on the stores alone. -/
theorem overflow_congr {layout other : Layout} (text : layout.text = other.text)
    (data : layout.data = other.data) : layout.overflow line = other.overflow line := by
  unfold overflow
  rw [text, data]

theorem warnings_stage : (layout.stage line).log.warnings = layout.log.warnings := by
  unfold stage stageLabel
  cases line.label with
  | none => rfl
  | some name =>
    dsimp only
    split
    · rfl
    · split <;> rfl

theorem warnings_report {α : Type} (number : Nat) (checked : Checked α) :
    (layout.report number checked).log.warnings.toList =
      layout.log.warnings.toList ++
        checked.warnings.map fun message => { line := some number, message } := by
  unfold report
  dsimp only
  rw [Log.warnings_foldl_warn, Log.warnings_foldl_error]

theorem warnings_put {item : Item} (accepted : line.item? = some item) :
    (layout.put (line.keyword.getD "") line.number item).log.warnings.toList =
      layout.log.warnings.toList ++ layout.overflow line := by
  unfold put overflow
  rw [accepted]
  cases item with
  | instruction opcode operands =>
    dsimp only
    split <;> simp [Log.warn]
  | words values =>
    dsimp only
    split <;> simp [Log.warn]

theorem warnings_settle (address : Option Address) :
    (layout.settle address).log.warnings.toList =
      layout.log.warnings.toList ++ dropped layout.waiting address := by
  cases address with
  | none => exact Log.warnings_foldl_warn _ _ _ _
  | some address => simp [settle, dropped]

theorem warnings_finish :
    layout.finish.log.warnings.toList =
      layout.log.warnings.toList ++ layout.waiting.map fun label =>
        { line := some label.line, message := .labelNotFollowed label.name } :=
  Log.warnings_foldl_warn _ _ _ _

/-! ## One line -/

theorem warnings_place_of_nothing (asks : line.region? = none) :
    (layout.place line).log.warnings = layout.log.warnings := by
  obtain ⟨errors, asked⟩ := SourceLine.region?_eq_none_iff.mp asks
  rw [place_eq, asked, fulfil, Log.warnings_foldl_error, warnings_stage]

/-- What a line that asks for an item warns about. -/
theorem warnings_place_of_item {region : Region} (asks : line.region? = some region) :
    (layout.place line).log.warnings.toList =
      layout.log.warnings.toList ++
        ((Request.ofLine line).warnings.map fun message =>
          { line := some line.number, message }) ++
        layout.overflow line ++
        dropped (layout.stage line).waiting (layout.free? region) := by
  obtain ⟨checked, asked⟩ := SourceLine.region?_eq_some_iff.mp asks
  have found : line.item? = checked.value? := by
    unfold SourceLine.item?
    rw [asked]
  obtain ⟨text, data⟩ := layout.stores_stage line
  have free : ((layout.stage line).report line.number checked).free? region =
      layout.free? region := by
    cases region with
    | text => exact congrArg TextStore.free? text
    | data => exact congrArg DataStore.free? data
  have same : ((layout.stage line).report line.number checked).overflow line =
      layout.overflow line :=
    overflow_congr line text data
  have reported := (layout.stage line).warnings_report line.number checked
  rw [warnings_stage] at reported
  rw [place_eq, asked, fulfil, warnings_settle, free, Request.warnings]
  cases accepted : checked.value? with
  | none =>
    have nothing : layout.overflow line = [] := by
      unfold overflow
      rw [found, accepted]
    dsimp only
    rw [reported, nothing, List.append_nil]
    rfl
  | some item =>
    have kept : ∀ layout : Layout, (layout.put (line.keyword.getD "") line.number item).waiting =
        layout.waiting := by
      intro layout
      obtain ⟨log, -, put⟩ := layout.put_eq (line.keyword.getD "") line.number item
      rw [put]
    dsimp only
    rw [warnings_put _ _ (found.trans accepted), same, reported, kept]
    rfl

/-- The warnings of a line, where others have been placed before it. -/
def warned : List LogEntry :=
  match line.region? with
  | none => []
  | some region =>
    ((Request.ofLine line).warnings.map fun message => { line := some line.number, message }) ++
      layout.overflow line ++ dropped (layout.stage line).waiting (layout.free? region)

theorem warnings_place :
    (layout.place line).log.warnings.toList =
      layout.log.warnings.toList ++ layout.warned line := by
  unfold warned
  cases asks : line.region? with
  | none => rw [layout.warnings_place_of_nothing line asks, List.append_nil]
  | some region =>
    rw [layout.warnings_place_of_item line asks]
    simp only [List.append_assoc]

/-! ## All lines -/

theorem warnings_foldl_place (lines : List SourceLine) (layout : Layout) :
    (lines.foldl place layout).log.warnings.toList =
      layout.log.warnings.toList ++ lines.zipIdx.flatMap fun (line, i) =>
        ((lines.take i).foldl place layout).warned line := by
  induction lines generalizing layout with
  | nil => simp
  | cons line rest ih =>
    rw [List.foldl_cons, ih, warnings_place]
    simp [List.zipIdx_cons, List.zipIdx_succ, List.flatMap_map]

/-- The warnings of a layout are those of its lines, each at the point that the lines before it have
reached, and then those of the labels that still wait. -/
theorem warnings_ofLines (lines : List SourceLine) :
    (ofLines lines).log.warnings.toList =
      (lines.zipIdx.flatMap fun (line, i) => ((lines.take i).foldl place {}).warned line) ++
        (lines.foldl place {}).waiting.map fun label =>
          { line := some label.line, message := .labelNotFollowed label.name } := by
  unfold ofLines
  rw [warnings_finish, warnings_foldl_place]
  rfl

end Layout

end TinyMips
