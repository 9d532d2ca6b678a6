import TinyMips.Assembly.Program
import TinyMips.Proofs.Assembly.Layout

/-!
# Renumbered lines

The number of a line names where something comes from and decides nothing. Assembling lines with
other numbers gives the same with these numbers in it, be it a program or a failure:

* **one line** — staging, placing and settling carry the numbers along
  (`Layout.place_renumber`);
* **a source** — so do the end of the source and linking (`Program.ofLines_renumber`).
-/

namespace TinyMips

/-! ## Other numbers -/

variable (number : Nat → Nat)

/-- The entry with another line number. -/
def LogEntry.renumber (entry : LogEntry) : LogEntry :=
  { entry with line := entry.line.map number }

def Log.renumber (log : Log) : Log :=
  { errors := log.errors.map (LogEntry.renumber number)
    warnings := log.warnings.map (LogEntry.renumber number) }

def Instruction.renumber (inst : Instruction) : Instruction :=
  { inst with line := inst.line.map number }

def SourceLine.renumber (line : SourceLine) : SourceLine :=
  { line with number := number line.number }

def WaitingLabel.renumber (label : WaitingLabel) : WaitingLabel :=
  { label with line := number label.line }

def Layout.renumber (layout : Layout) : Layout :=
  { layout with
    text := layout.text.map (Instruction.renumber number)
    waiting := layout.waiting.map (WaitingLabel.renumber number)
    log := layout.log.renumber number }

/-- The program with other line numbers in its instructions and in its log. -/
def Program.renumber (program : Program) : Program :=
  { program with
    text := program.text.map (Instruction.renumber number)
    log := program.log.renumber number }

def BuildError.renumber (error : BuildError) : BuildError :=
  { log := error.log.renumber number }

/-- The result of an assembly with other line numbers in it. -/
def Program.renumberResult : Except BuildError Program → Except BuildError Program
  | .ok program => .ok (program.renumber number)
  | .error error => .error (error.renumber number)

/-! ## Logs and stores -/

namespace Log

variable (log : Log) (line : Option Nat)

theorem error_renumber (message : Message) :
    (log.renumber number).error (line.map number) message =
      (log.error line message).renumber number := by
  simp [renumber, error, LogEntry.renumber]

theorem warn_renumber (message : Message) :
    (log.renumber number).warn (line.map number) message =
      (log.warn line message).renumber number := by
  simp [renumber, warn, LogEntry.renumber]

theorem errors_renumber (messages : List Message) :
    messages.foldl (fun log message => log.error (line.map number) message)
        (log.renumber number) =
      (messages.foldl (fun log message => log.error line message) log).renumber number :=
  List.foldl_hom (Log.renumber number) fun log message => log.error_renumber number line message

theorem warnings_renumber (messages : List Message) :
    messages.foldl (fun log message => log.warn (line.map number) message) (log.renumber number) =
      (messages.foldl (fun log message => log.warn line message) log).renumber number :=
  List.foldl_hom (Log.renumber number) fun log message => log.warn_renumber number line message

/-- Warnings about labels carry the line of each label. -/
theorem labels_renumber (labels : List WaitingLabel) (message : String → Message) :
    (labels.map (WaitingLabel.renumber number)).foldl
        (fun log label => log.warn label.line (message label.name)) (log.renumber number) =
      (labels.foldl (fun log label => log.warn label.line (message label.name)) log).renumber
        number := by
  rw [List.foldl_map]
  exact List.foldl_hom (Log.renumber number) fun log label =>
    log.warn_renumber number (some label.line) (message label.name)

end Log

theorem TextStore.push_renumber (store : TextStore) (inst : Instruction) :
    (store.map (Instruction.renumber number)).push (inst.renumber number) =
      (store.push inst).map (Instruction.renumber number) := by
  have same : (store.map (Instruction.renumber number)).isFull = store.isFull :=
    isFull_eq (store.size_map _)
  cases full : store.isFull with
  | true => rw [push_of_full full, push_of_full (same.trans full)]
  | false =>
    apply eq_of_instructions
    rw [instructions_push (same.trans full)]
    unfold map
    dsimp only
    rw [instructions_push full, Array.map_push]
    simp [Instruction.renumber, nextAddress, size]

theorem SourceLine.instruction?_renumber (line : SourceLine) :
    (line.renumber number).instruction? = line.instruction?.map (Instruction.renumber number) := by
  have asked : (line.renumber number).item? = line.item? := rfl
  unfold instruction?
  rw [asked, Option.map_bind]
  congr 1
  funext item
  cases item <;> rfl

theorem SourceLine.length_instruction?_renumber (line : SourceLine) :
    (line.renumber number).instruction?.toList.length = line.instruction?.toList.length := by
  rw [instruction?_renumber]
  cases line.instruction? <;> rfl

/-! ## One line -/

namespace Layout

variable (layout : Layout)

theorem isTaken_renumber (name : String) :
    (layout.renumber number).isTaken name = layout.isTaken name := by
  unfold isTaken renumber
  dsimp only
  rw [List.any_map]
  rfl

theorem stageLabel_renumber (name : String) (line : Nat) :
    (layout.renumber number).stageLabel name (number line) =
      (layout.stageLabel name line).renumber number := by
  unfold stageLabel
  rw [isTaken_renumber]
  split
  · simp [renumber, ← Log.error_renumber]
  · split
    · simp [renumber, ← Log.error_renumber]
    · simp [renumber, WaitingLabel.renumber]

theorem settle_renumber (address : Option Address) :
    (layout.renumber number).settle address = (layout.settle address).renumber number := by
  cases address with
  | none =>
    unfold settle renumber
    dsimp only
    rw [Log.labels_renumber number layout.log layout.waiting .labelDropped]
    rfl
  | some address =>
    unfold settle renumber
    dsimp only
    rw [List.foldl_map]
    rfl

theorem report_renumber {α : Type} (line : Nat) (checked : Checked α) :
    (layout.renumber number).report (number line) checked =
      (layout.report line checked).renumber number := by
  unfold report renumber
  dsimp only
  rw [← Log.warnings_renumber, ← Log.errors_renumber]
  rfl

theorem put_renumber (keyword : String) (line : Nat) (item : Item) :
    (layout.renumber number).put keyword (number line) item =
      (layout.put keyword line item).renumber number := by
  cases item with
  | instruction opcode operands =>
    have full : (layout.renumber number).text.isFull = layout.text.isFull :=
      TextStore.isFull_eq (layout.text.size_map _)
    unfold put
    dsimp only
    rw [full]
    split
    · simp [renumber, ← Log.warn_renumber]
    · unfold renumber
      dsimp only
      rw [← TextStore.push_renumber]
      rfl
  | words values =>
    unfold put renumber
    dsimp only
    split
    · rw [← Log.warn_renumber]
      rfl
    · rfl

theorem free?_renumber (region : Region) :
    (layout.renumber number).free? region = layout.free? region := by
  cases region with
  | data => rfl
  | text =>
    show (layout.text.map _).free? = layout.text.free?
    rw [TextStore.free?_eq, TextStore.free?_eq, TextStore.size_map]

theorem fulfil_renumber (keyword : String) (line : Nat) (request : Request) :
    (layout.renumber number).fulfil keyword (number line) request =
      (layout.fulfil keyword line request).renumber number := by
  cases request with
  | nothing errors =>
    unfold fulfil renumber
    dsimp only
    rw [← Log.errors_renumber]
    rfl
  | item region checked =>
    unfold fulfil
    dsimp only
    rw [report_renumber, free?_renumber]
    cases checked.value? with
    | none => exact settle_renumber number _ _
    | some item =>
      dsimp only
      rw [put_renumber, settle_renumber]

theorem place_renumber (line : SourceLine) :
    (layout.renumber number).place (line.renumber number) =
      (layout.place line).renumber number := by
  have staged : (layout.renumber number).stage (line.renumber number) =
      (layout.stage line).renumber number := by
    unfold stage SourceLine.renumber
    cases line.label with
    | none => rfl
    | some name => exact stageLabel_renumber number layout name line.number
  rw [place_eq, place_eq, staged, ← fulfil_renumber]
  rfl

theorem finish_renumber : (layout.renumber number).finish = layout.finish.renumber number := by
  unfold finish renumber
  dsimp only
  rw [Log.labels_renumber number layout.log layout.waiting .labelNotFollowed]
  rfl

/-! ## A source -/

theorem foldl_place_renumber (lines : List SourceLine) :
    (lines.map (SourceLine.renumber number)).foldl place (layout.renumber number) =
      (lines.foldl place layout).renumber number := by
  induction lines generalizing layout with
  | nil => rfl
  | cons line rest ih => rw [List.map_cons, List.foldl_cons, place_renumber, ih, List.foldl_cons]

theorem ofLines_renumber (lines : List SourceLine) :
    ofLines (lines.map (SourceLine.renumber number)) = (ofLines lines).renumber number := by
  have empty : ({} : Layout).renumber number = {} := by
    simp [renumber, Log.renumber, TextStore.map]
  unfold ofLines
  rw [← finish_renumber, ← foldl_place_renumber, empty]

end Layout

/-- What a reference is linked to does not depend on line numbers. -/
theorem Instruction.link_renumber (inst : Instruction) (labels : LabelTable) :
    (inst.renumber number).link labels = (inst.link labels).renumber number := by
  have asked : (inst.renumber number).link? labels = inst.link? labels := rfl
  unfold link
  rw [asked]
  split <;> rfl

theorem Instruction.linkError?_renumber (inst : Instruction) (labels : LabelTable) :
    (inst.renumber number).linkError? labels =
      (inst.linkError? labels).map (LogEntry.renumber number) := by
  have asked : (inst.renumber number).link? labels = inst.link? labels := rfl
  unfold linkError?
  rw [asked]
  split <;> rfl

namespace Layout

variable (layout : Layout)

theorem link_renumber : (layout.renumber number).link = layout.link.renumber number := by
  have text : (layout.renumber number).text.link layout.labels =
      (layout.text.link layout.labels).map (Instruction.renumber number) := by
    apply TextStore.eq_of_instructions
    simp [TextStore.link, TextStore.map, renumber, Instruction.link_renumber]
  have errors : (layout.renumber number).text.linkErrors layout.labels =
      (layout.text.linkErrors layout.labels).map (LogEntry.renumber number) := by
    show Array.filterMap _ (layout.text.instructions.map (Instruction.renumber number)) = _
    unfold TextStore.linkErrors
    rw [Array.filterMap_map, Array.map_filterMap]
    congr 1
    funext inst
    exact inst.linkError?_renumber number layout.labels
  unfold link
  have labels : (layout.renumber number).labels = layout.labels := rfl
  rw [labels, text, errors]
  simp [renumber, Log.renumber]

theorem toProgram_renumber :
    (layout.renumber number).toProgram = Program.renumberResult number layout.toProgram := by
  have failed : (layout.renumber number).log.hasErrors = layout.log.hasErrors := by
    simp [renumber, Log.renumber, Log.hasErrors, Array.isEmpty]
  unfold toProgram
  rw [failed]
  split
  · rfl
  · simp [Program.renumberResult, Program.renumber, renumber, TextStore.map,
      Instruction.renumber, Function.comp_def]

end Layout

/-- Assembling lines with other numbers gives the same result with these numbers in it. -/
theorem Program.ofLines_renumber (lines : List SourceLine) :
    ofLines (lines.map (SourceLine.renumber number)) =
      renumberResult number (ofLines lines) := by
  unfold ofLines
  rw [Layout.ofLines_renumber, Layout.link_renumber, Layout.toProgram_renumber]

end TinyMips
