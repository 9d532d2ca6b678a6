import TinyMips.Proofs.Assembly.Layout

/-!
# The errors of a layout

No error of a line hides, adds or alters an error of another line. Whatever was placed before, a
line reports what it reports alone, and in front of it at most that its label is taken
(`Layout.errors_place`). The errors of a layout are these reports in the order of the lines
(`Layout.errors_ofLines`), so that a layout without errors accepts every line
(`Layout.Admits`, `Layout.accepted_of_no_errors`).
-/

namespace TinyMips

namespace Layout

/-! ## What a line reports -/

/-- The report of a label that is well-formed and taken. -/
def duplicate (layout : Layout) (line : SourceLine) : List LogEntry :=
  match line.label with
  | some name =>
    if Label.isValid name.toList = true ∧ layout.isTaken name = true then
      [{ line := some line.number, message := .labelAlreadyDefined name }]
    else []
  | none => []

/-- The report of a label that is not well-formed. -/
def malformed (line : SourceLine) : List LogEntry :=
  match line.label with
  | some name =>
    if Label.isValid name.toList = false then
      [{ line := some line.number, message := .labelNotValid name }]
    else []
  | none => []

/-- The errors of a source of one line. -/
def errorsAlone (line : SourceLine) : List LogEntry :=
  (ofLines [line]).log.errors.toList

variable (layout : Layout) (line : SourceLine)

theorem errors_stage :
    (layout.stage line).log.errors.toList =
      layout.log.errors.toList ++ layout.duplicate line ++ malformed line := by
  unfold stage duplicate malformed
  cases line.label with
  | none => simp
  | some name =>
    cases valid : Label.isValid name.toList with
    | false => simp [stageLabel, valid, Log.error]
    | true => cases taken : layout.isTaken name <;> simp [stageLabel, valid, taken, Log.error]

theorem errors_fulfil (keyword : String) :
    (layout.fulfil keyword line.number (.ofLine line)).log.errors.toList =
      layout.log.errors.toList ++ (refusals line.number (Request.ofLine line).errors).toList := by
  cases asked : Request.ofLine line with
  | nothing errors =>
    obtain ⟨log, grown, eq⟩ := layout.fulfil_of_nothing asked keyword
    rw [← asked, eq, asked, Request.errors, ← Array.toList_append, ← grown]
  | item region checked =>
    obtain ⟨log, grown, eq⟩ := layout.fulfil_of_item asked keyword
    rw [← asked, eq, errors_settle, asked, Request.errors, ← Array.toList_append, ← grown]

/-- In an empty layout no label is taken. -/
theorem duplicate_empty : ({} : Layout).duplicate line = [] := by
  unfold duplicate
  cases line.label with
  | none => rfl
  | some name =>
    have free : ({} : Layout).isTaken name = false := rfl
    simp [free]

theorem errors_finish : layout.finish.log.errors = layout.log.errors :=
  Log.errors_foldl_warn _ _ _ _

theorem errorsAlone_eq :
    errorsAlone line =
      malformed line ++ (refusals line.number (Request.ofLine line).errors).toList := by
  have nothing : ({} : Layout).log.errors.toList = [] := rfl
  unfold errorsAlone ofLines
  rw [errors_finish, List.foldl_cons, List.foldl_nil, place_eq, errors_fulfil, errors_stage,
    duplicate_empty, nothing]
  rfl

/-- A line reports a taken label and then what it reports alone, whatever was placed before it. -/
theorem errors_place :
    (layout.place line).log.errors.toList =
      layout.log.errors.toList ++ layout.duplicate line ++ errorsAlone line := by
  rw [place_eq, errors_fulfil, errors_stage, errorsAlone_eq]
  simp only [List.append_assoc]

/-! ## What a source reports -/

/-- The reports of some lines, each at the point that the lines before it have reached. -/
theorem errors_foldl_place (lines : List SourceLine) (layout : Layout) :
    (lines.foldl place layout).log.errors.toList =
      layout.log.errors.toList ++ lines.zipIdx.flatMap fun (line, i) =>
        ((lines.take i).foldl place layout).duplicate line ++ errorsAlone line := by
  induction lines generalizing layout with
  | nil => simp
  | cons line rest ih =>
    rw [List.foldl_cons, ih, errors_place]
    simp [List.zipIdx_cons, List.zipIdx_succ, List.flatMap_map]

/-- The errors of a layout are, line by line, the report of a taken label and then what the line
reports alone. -/
theorem errors_ofLines (lines : List SourceLine) :
    (ofLines lines).log.errors.toList = lines.zipIdx.flatMap fun (line, i) =>
      ((lines.take i).foldl place {}).duplicate line ++ errorsAlone line := by
  unfold ofLines
  rw [errors_finish, errors_foldl_place]
  rfl

/-- What a line reports depends on the lines before it only in whether its label is taken, and this
holds from any layout on: no earlier error, duplicate label or full store matters. -/
theorem errors_linewise :
    (∀ lines : List SourceLine,
      (ofLines lines).log.errors.toList = lines.zipIdx.flatMap fun (line, i) =>
        ((lines.take i).foldl place {}).duplicate line ++ errorsAlone line) ∧
    ∀ (layout : Layout) (line : SourceLine),
      (layout.place line).log.errors.toList =
        layout.log.errors.toList ++ layout.duplicate line ++ errorsAlone line :=
  ⟨errors_ofLines, errors_place⟩

/-! ## Sources without errors -/

/-- Whether a layout takes a line without an error: the line is accepted, and its label is
well-formed and not taken. -/
structure Admits (layout : Layout) (line : SourceLine) : Prop where
  accepted : (Request.ofLine line).errors = []
  label (name : String) (labelled : line.label = some name) :
    Label.isValid name.toList = true ∧ layout.isTaken name = false

variable {layout line}

/-- What is not admitted is reported. -/
theorem admits_iff :
    layout.Admits line ↔ layout.duplicate line ++ errorsAlone line = [] := by
  rw [errorsAlone_eq, List.append_eq_nil_iff, List.append_eq_nil_iff]
  unfold duplicate malformed refusals
  constructor
  · rintro ⟨accepted, label⟩
    rw [accepted]
    cases labelled : line.label with
    | none => exact ⟨rfl, rfl, rfl⟩
    | some name => simp [label name labelled]
  · rintro ⟨fresh, wellFormed, accepted⟩
    refine ⟨by simpa using accepted, ?_⟩
    intro name labelled
    rw [labelled] at fresh wellFormed
    have valid : Label.isValid name.toList = true := by simpa using wellFormed
    exact ⟨valid, by simpa [valid] using fresh⟩

/-- A line leaves a layout without errors exactly if there were none and the line adds none. -/
theorem errors_place_eq_empty_iff :
    (layout.place line).log.errors = #[] ↔ layout.log.errors = #[] ∧ layout.Admits line := by
  rw [admits_iff, ← Array.toList_eq_nil_iff, ← Array.toList_eq_nil_iff, errors_place,
    List.append_assoc, List.append_eq_nil_iff]

theorem errors_eq_empty_of_foldl_place {lines : List SourceLine}
    (silent : (lines.foldl place layout).log.errors = #[]) : layout.log.errors = #[] := by
  rw [← Array.toList_eq_nil_iff, errors_foldl_place, List.append_eq_nil_iff] at silent
  exact Array.toList_eq_nil_iff.mp silent.1

/-- Where a layout has no errors, every line is accepted, with a label that is well-formed and not
taken. -/
theorem accepted_of_no_errors {lines : List SourceLine} (silent : (ofLines lines).log.errors = #[])
    {i : Nat} {line : SourceLine} (found : lines[i]? = some line) :
    (Request.ofLine line).errors = [] ∧
      ∀ name, line.label = some name →
        Label.isValid name.toList = true ∧
          ((lines.take i).foldl place {}).isTaken name = false := by
  have all := errors_ofLines lines
  rw [silent, eq_comm, Array.toList_empty, List.flatMap_eq_nil_iff] at all
  have own := all (line, i) (List.mem_zipIdx_iff_getElem?.mpr found)
  have admits := admits_iff.mpr own
  exact ⟨admits.accepted, admits.label⟩

end Layout

end TinyMips
