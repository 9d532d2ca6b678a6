import TinyMips.Proofs.Assembly.Definition
import TinyMips.Proofs.Assembly.Errors
import TinyMips.Proofs.Assembly.Program

/-!
# Where diagnostics point

Every error and every warning of an assembly is about a line of the source that has a label or a
keyword (`LogEntry.Concerns`):

* **placing** — a line reports itself, so that the errors of a layout come in the order of its lines
  (`Layout.concerns_of_mem_errors`, `Layout.pairwise_errors`);
* **labels** — a warning about a label may come late, but it is about the line that defines the
  label (`Layout.defined_of_mem_waiting`, `Layout.concerns_of_mem_warnings`);
* **linking** — an instruction reports the line that wrote it, at most once
  (`Layout.concerns_of_mem_linkErrors`, `Layout.pairwise_linkErrors`).
-/

namespace TinyMips

/-- Whether an entry is about a line, and the line has a label or a keyword. -/
structure LogEntry.Concerns (entry : LogEntry) (line : SourceLine) : Prop where
  number : entry.line = some line.number
  filled : line.isBlank = false

/-! ## Lines that report -/

namespace SourceLine

variable {line : SourceLine}

theorem not_blank_of_label {name : String} (labelled : line.label = some name) :
    line.isBlank = false := by
  unfold isBlank
  rw [labelled]
  rfl

theorem not_blank_of_keyword {keyword : String} (written : line.keyword = some keyword) :
    line.isBlank = false := by
  unfold isBlank
  rw [written, Option.isNone_some, Bool.and_false]

theorem not_blank_of_region? {region : Region} (asks : line.region? = some region) :
    line.isBlank = false := by
  obtain ⟨keyword, written, -⟩ := Option.bind_eq_some_iff.mp asks
  exact not_blank_of_keyword written

/-- Only what a keyword asks for is refused. -/
theorem not_blank_of_mem_errors {message : Message} (mem : message ∈ (Request.ofLine line).errors) :
    line.isBlank = false := by
  cases written : line.keyword with
  | some keyword => exact not_blank_of_keyword written
  | none =>
    unfold Request.ofLine at mem
    rw [written] at mem
    nomatch mem

/-- A line of a source stands at the index that its number counts. -/
theorem getElem?_of_mem_ofSource {source : String} (mem : line ∈ ofSource source) :
    1 ≤ line.number ∧ line.number ≤ (Text.lines source.toList).length ∧
      (ofSource source)[line.number - 1]? = some line := by
  obtain ⟨i, found⟩ := List.mem_iff_getElem?.mp mem
  have made := found
  unfold ofSource at made
  rw [List.getElem?_mapIdx, Option.map_eq_some_iff] at made
  obtain ⟨raw, within, rfl⟩ := made
  have lt := (List.getElem?_eq_some_iff.mp within).1
  rw [number_ofText]
  exact ⟨by omega, by omega, found⟩

end SourceLine

namespace Layout

variable {lines : List SourceLine} {layout : Layout} {line : SourceLine} {entry : LogEntry}

/-! ## Errors of placing -/

theorem concerns_of_mem_duplicate (mem : entry ∈ layout.duplicate line) : entry.Concerns line := by
  unfold duplicate at mem
  split at mem
  · next name labelled =>
    split at mem
    · obtain rfl := List.mem_singleton.mp mem
      exact ⟨rfl, SourceLine.not_blank_of_label labelled⟩
    · nomatch mem
  · nomatch mem

theorem concerns_of_mem_errorsAlone (mem : entry ∈ errorsAlone line) : entry.Concerns line := by
  rw [errorsAlone_eq, List.mem_append] at mem
  rcases mem with label | refusal
  · unfold malformed at label
    split at label
    · next name labelled =>
      split at label
      · obtain rfl := List.mem_singleton.mp label
        exact ⟨rfl, SourceLine.not_blank_of_label labelled⟩
      · nomatch label
    · nomatch label
  · obtain ⟨message, within, rfl⟩ := List.mem_map.mp refusal
    exact ⟨rfl, SourceLine.not_blank_of_mem_errors within⟩

theorem concerns_of_mem_reports
    (mem : entry ∈ layout.duplicate line ++ errorsAlone line) : entry.Concerns line :=
  (List.mem_append.mp mem).elim concerns_of_mem_duplicate concerns_of_mem_errorsAlone

theorem concerns_of_mem_errors (mem : entry ∈ (ofLines lines).log.errors.toList) :
    ∃ line ∈ lines, entry.Concerns line := by
  rw [errors_ofLines, List.mem_flatMap] at mem
  obtain ⟨⟨line, i⟩, within, reported⟩ := mem
  have found := List.mem_zipIdx_iff_getElem?.mp within
  exact ⟨line, List.mem_of_getElem? found, concerns_of_mem_reports reported⟩

/-- The errors of placing come in the order of the lines. -/
theorem pairwise_errors (ordered : lines.Pairwise fun a b => a.number < b.number) :
    ((ofLines lines).log.errors.toList.filterMap LogEntry.line).Pairwise (· ≤ ·) := by
  rw [← List.zipIdx_map_fst 0 lines, List.pairwise_map] at ordered
  rw [errors_ofLines, List.pairwise_filterMap, List.pairwise_flatMap]
  constructor
  · -- all that one line reports has the same number
    rintro ⟨line, i⟩ -
    refine List.pairwise_of_forall_mem_list fun a first b second m hm n hn => ?_
    rw [(concerns_of_mem_reports first).number] at hm
    rw [(concerns_of_mem_reports second).number] at hn
    exact Nat.le_of_eq (Option.some.inj (hm.symm.trans hn))
  · refine ordered.imp ?_
    rintro ⟨line, i⟩ ⟨other, j⟩ lt a first b second m hm n hn
    rw [(concerns_of_mem_reports first).number, Option.some.injEq] at hm
    rw [(concerns_of_mem_reports second).number, Option.some.injEq] at hn
    rw [← hm, ← hn]
    exact Nat.le_of_lt lt

/-! ## Warnings -/

theorem defined_of_mem_stage {label : WaitingLabel} (mem : label ∈ (layout.stage line).waiting) :
    label ∈ layout.waiting ∨ (line.number = label.line ∧ line.isBlank = false) := by
  rw [waiting_stage, List.mem_append] at mem
  rcases mem with before | new
  · exact .inl before
  · obtain ⟨labelled, number, -⟩ := newLabel?_eq_some_iff.mp (Option.mem_toList.mp new)
    exact .inr ⟨number.symm, SourceLine.not_blank_of_label labelled⟩

/-- A line lets no label wait but its own. -/
theorem defined_of_mem_place {label : WaitingLabel} (mem : label ∈ (layout.place line).waiting) :
    label ∈ layout.waiting ∨ (line.number = label.line ∧ line.isBlank = false) := by
  cases asks : line.region? with
  | none =>
    rw [(labels_place_of_nothing asks).2] at mem
    exact defined_of_mem_stage mem
  | some region =>
    rw [(labels_place_of_item asks).2] at mem
    nomatch mem

/-- A label that waits after some lines is on one of them or waited before. -/
theorem defined_of_mem_waiting {label : WaitingLabel}
    (mem : label ∈ (lines.foldl place layout).waiting) :
    label ∈ layout.waiting ∨
      ∃ line ∈ lines, line.number = label.line ∧ line.isBlank = false := by
  induction lines generalizing layout with
  | nil => exact .inl mem
  | cons line rest ih =>
    rcases ih mem with waits | ⟨other, within, defined⟩
    · rcases defined_of_mem_place waits with before | own
      · exact .inl before
      · exact .inr ⟨line, List.mem_cons_self, own⟩
    · exact .inr ⟨other, List.mem_cons_of_mem _ within, defined⟩

theorem concerns_of_mem_overflow (mem : entry ∈ layout.overflow line)
    (filled : line.isBlank = false) : entry.Concerns line := by
  refine ⟨?_, filled⟩
  unfold overflow at mem
  split at mem
  · split at mem
    · rw [List.mem_singleton.mp mem]
    · nomatch mem
  · split at mem
    · rw [List.mem_singleton.mp mem]
    · nomatch mem
  · nomatch mem

/-- A line warns about itself or about a label that waits for its item. -/
theorem concerns_of_mem_warned (mem : entry ∈ layout.warned line) :
    entry.Concerns line ∨ ∃ label ∈ (layout.stage line).waiting, entry.line = some label.line := by
  unfold warned at mem
  split at mem
  · nomatch mem
  · next region asks =>
    have filled := SourceLine.not_blank_of_region? asks
    rw [List.mem_append, List.mem_append] at mem
    rcases mem with (own | full) | late
    · obtain ⟨message, -, rfl⟩ := List.mem_map.mp own
      exact .inl ⟨rfl, filled⟩
    · exact .inl (concerns_of_mem_overflow full filled)
    · cases address : layout.free? region with
      | some address =>
        rw [address] at late
        nomatch late
      | none =>
        rw [address] at late
        obtain ⟨label, waits, rfl⟩ := List.mem_map.mp late
        exact .inr ⟨label, waits, rfl⟩

theorem concerns_of_mem_warnings (mem : entry ∈ (ofLines lines).log.warnings.toList) :
    ∃ line ∈ lines, entry.Concerns line := by
  -- no label waits in the empty layout
  have defined {number : Nat} {label : WaitingLabel}
      (waits : label ∈ ((lines.take number).foldl place {}).waiting) :
      ∃ line ∈ lines, line.number = label.line ∧ line.isBlank = false := by
    rcases defined_of_mem_waiting waits with before | ⟨line, within, own⟩
    · nomatch before
    · exact ⟨line, List.mem_of_mem_take within, own⟩
  rw [warnings_ofLines, List.mem_append, List.mem_flatMap] at mem
  rcases mem with ⟨⟨line, i⟩, within, warned⟩ | dangling
  · have here := List.mem_of_getElem? (List.mem_zipIdx_iff_getElem?.mp within)
    rcases concerns_of_mem_warned warned with own | ⟨label, waits, number⟩
    · exact ⟨line, here, own⟩
    · rcases defined_of_mem_stage waits with before | ⟨same, filled⟩
      · obtain ⟨other, among, same, filled⟩ := defined before
        exact ⟨other, among, by rw [number, same], filled⟩
      · exact ⟨line, here, by rw [number, same], filled⟩
  · obtain ⟨label, waits, rfl⟩ := List.mem_map.mp dangling
    rw [← List.take_length (l := lines)] at waits
    obtain ⟨line, within, same, filled⟩ := defined waits
    exact ⟨line, within, by rw [same], filled⟩

/-! ## Errors of linking -/

theorem errors_link (layout : Layout) :
    layout.link.log.errors = layout.log.errors ++ layout.text.linkErrors layout.labels := rfl

theorem warnings_link (layout : Layout) : layout.link.log.warnings = layout.log.warnings := rfl

/-- Placing an instruction keeps the number of its line. -/
theorem map_line_instructions (lines : List SourceLine) :
    (ofLines lines).text.instructions.toList.map Instruction.line =
      (SourceLine.placed lines).map Instruction.line := by
  rw [text_ofLines, TextStore.toList_foldl_push]
  refine List.ext_getElem? fun i => ?_
  simp [TextStore.size]
  rfl

theorem line_of_linkError? {inst : Instruction} {labels : LabelTable}
    (reported : inst.linkError? labels = some entry) : entry.line = inst.line := by
  unfold Instruction.linkError? at reported
  split at reported
  · obtain rfl := Option.some.inj reported
    rfl
  · contradiction

theorem concerns_of_mem_linkErrors {labels : LabelTable}
    (mem : entry ∈ ((ofLines lines).text.linkErrors labels).toList) :
    ∃ line ∈ lines, entry.Concerns line := by
  rw [TextStore.linkErrors, Array.toList_filterMap, List.mem_filterMap] at mem
  obtain ⟨inst, within, reported⟩ := mem
  have number := List.mem_map_of_mem (f := Instruction.line) within
  rw [map_line_instructions, List.mem_map] at number
  obtain ⟨written, placed, same⟩ := number
  obtain ⟨i, found⟩ := List.mem_iff_getElem?.mp placed
  obtain ⟨line, here, wrote⟩ := SourceLine.exists_line_of_placed found
  obtain ⟨keyword, -, stated, -⟩ := SourceLine.check_of_instruction? wrote
  refine ⟨line, here, ?_, SourceLine.not_blank_of_keyword stated⟩
  rw [line_of_linkError? reported, ← same, (SourceLine.accepted_of_instruction? wrote).2]

/-- The errors of linking come in the order of the lines, and no line has two. -/
theorem pairwise_linkErrors (ordered : lines.Pairwise fun a b => a.number < b.number)
    (labels : LabelTable) :
    (((ofLines lines).text.linkErrors labels).toList.filterMap LogEntry.line).Pairwise
      (· < ·) := by
  have placed : ((ofLines lines).text.instructions.toList.map Instruction.line).Pairwise
      fun a b => ∃ m n, a = some m ∧ b = some n ∧ m < n := by
    rw [map_line_instructions, List.pairwise_map]
    exact SourceLine.pairwise_placed ordered
  rw [List.pairwise_map] at placed
  rw [TextStore.linkErrors, Array.toList_filterMap, List.pairwise_filterMap,
    List.pairwise_filterMap]
  refine placed.imp ?_
  rintro inst other ⟨m, n, own, next, lt⟩ first reported second reported' k hk l hl
  rw [line_of_linkError? reported, own, Option.some.injEq] at hk
  rw [line_of_linkError? reported', next, Option.some.injEq] at hl
  rwa [← hk, ← hl]

end Layout

namespace Program

/-- The log of an assembly, whether it succeeded or failed. -/
def logOf : Except BuildError Program → Log
  | .ok program => program.log
  | .error error => error.log

theorem logOf_ofLines (lines : List SourceLine) :
    logOf (ofLines lines) = (Layout.ofLines lines).link.log := by
  unfold ofLines Layout.toProgram
  split <;> rfl

/-- Every diagnostic of a source points at one of its lines, which has a label or a keyword. The
errors are those of placing, whose numbers never fall, and then those of linking, whose numbers rise
from each to the next. -/
theorem diagnostics_ordered (source : String) :
    let lines := SourceLine.ofSource source
    let count := (Text.lines source.toList).length
    let layout := Layout.ofLines lines
    let linking := layout.text.linkErrors layout.labels
    let log := logOf (ofSource source)
    (∀ entry ∈ log.errors ++ log.warnings, ∃ number line,
      entry.line = some number ∧ 1 ≤ number ∧ number ≤ count ∧
        lines[number - 1]? = some line ∧ (line.label.isSome ∨ line.keyword.isSome)) ∧
    log.errors = layout.log.errors ++ linking ∧
    (layout.log.errors.toList.filterMap LogEntry.line).Pairwise (· ≤ ·) ∧
    (linking.toList.filterMap LogEntry.line).Pairwise (· < ·) := by
  intro lines count layout linking log
  have ordered := SourceLine.pairwise_ofSource source
  have whole : log = layout.link.log := logOf_ofLines lines
  refine ⟨?_, by rw [whole, layout.errors_link], Layout.pairwise_errors ordered,
    Layout.pairwise_linkErrors ordered layout.labels⟩
  intro entry mem
  have concerned : ∃ line ∈ lines, entry.Concerns line := by
    rw [whole, layout.errors_link, layout.warnings_link, ← Array.mem_toList_iff] at mem
    simp only [Array.toList_append, List.mem_append] at mem
    rcases mem with (placing | link) | warning
    · exact Layout.concerns_of_mem_errors placing
    · exact Layout.concerns_of_mem_linkErrors link
    · exact Layout.concerns_of_mem_warnings warning
  obtain ⟨line, within, number, filled⟩ := concerned
  obtain ⟨low, high, here⟩ := SourceLine.getElem?_of_mem_ofSource within
  refine ⟨line.number, line, number, low, high, here, ?_⟩
  rwa [SourceLine.isBlank, Bool.and_eq_false_iff, Option.isNone_eq_false_iff,
    Option.isNone_eq_false_iff] at filled

end Program

end TinyMips
