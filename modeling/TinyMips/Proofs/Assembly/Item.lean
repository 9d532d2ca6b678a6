import TinyMips.Assembly.Item
import TinyMips.Proofs.Assembly.Operand

/-!
# What a line asks for

`SourceLine.instruction?` and `SourceLine.values` are what a line adds to the two stores, and
`SourceLine.region?` is the region of the item that it asks for. A line that asks for an item of a
region is accepted for an item of that region or refused for a reason (`Request.suits_of_ofLine`,
`Request.explained_of_ofLine`). It is warned about only for writing `r0`
(`Request.hardwired_of_mem_warnings`).
-/

namespace TinyMips

namespace Item

/-- The instruction that an item is, on behalf of a line. -/
def instruction? (line : Nat) : Item → Option Instruction
  | .instruction opcode operands => some { opcode, operands, line := some line }
  | .words _ => none

/-- The data that an item is. -/
def values : Item → List Word
  | .instruction .. => []
  | .words values => values

end Item

namespace SourceLine

/-- The item that a line asks for, if it is accepted. -/
def item? (line : SourceLine) : Option Item :=
  match Request.ofLine line with
  | .nothing _ => none
  | .item _ checked => checked.value?

/-- The instruction that a line adds. -/
def instruction? (line : SourceLine) : Option Instruction :=
  line.item?.bind fun item => item.instruction? line.number

/-- The data that a line adds. -/
def values (line : SourceLine) : List Word :=
  (line.item?.map Item.values).getD []

/-- The region of the item that a line asks for: an instruction with a mnemonic, data with `.word`.
A line that is refused asks for its item, too. -/
def region? (line : SourceLine) : Option Region :=
  line.keyword.bind fun keyword =>
    if keyword.toList.head? = some '.' then
      if keyword = ".word" then some .data else none
    else some .text

end SourceLine

/-- Whether an item belongs into a region and is well-formed. Data is never empty. -/
def Item.Suits (region : Region) : Item → Prop
  | .instruction opcode operands => region = .text ∧ operands.Accepted opcode
  | .words values => region = .data ∧ values ≠ []

namespace Request

/-- The reasons for which a request is refused. -/
def errors : Request → List Message
  | .nothing errors => errors
  | .item _ checked => checked.errors

/-- What the check of a request warns about. -/
def warnings : Request → List Message
  | .nothing _ => []
  | .item _ checked => checked.warnings

/-! ## Reasons of a refusal -/

theorem explained_wordValue (token : List Char) : (wordValue token).Explained :=
  Checked.explained_ofOption _ _

theorem explained_repeatCount (token : List Char) : (repeatCount token).Explained := by
  unfold repeatCount
  split
  · split
    · exact Checked.explained_accept _
    · exact Checked.explained_reject _
  · exact Checked.explained_reject _

theorem explained_wordValues (operands : List Char) : (wordValues operands).Explained := by
  unfold wordValues
  dsimp only
  split
  · exact Checked.explained_reject _
  · split
    · exact ((explained_wordValue _).map _).ap (explained_repeatCount _)
    · refine Checked.Explained.all fun checked mem => ?_
      obtain ⟨token, -, rfl⟩ := List.mem_map.mp mem
      exact explained_wordValue _

theorem explained_instruction (mnemonic : String) (operands : List Char) :
    (instruction mnemonic operands).Explained := by
  unfold instruction
  split
  · exact (Checked.explained_withSummary _ _).map _
  · exact Checked.explained_reject _

/-! ## Accepted items -/

theorem one_le_of_repeatCount {token : List Char} {count : Nat}
    (h : (repeatCount token).value? = some count) : 1 ≤ count := by
  unfold repeatCount at h
  split at h
  · split at h
    · next written _ positive =>
      obtain rfl := Option.some.inj h
      omega
    · contradiction
  · contradiction

/-- Accepted data is never empty. -/
theorem wordValues_ne_nil {operands : List Char} {values : List Word}
    (h : (wordValues operands).value? = some values) : values ≠ [] := by
  unfold wordValues at h
  dsimp only at h
  split at h
  · contradiction
  · split at h
    · simp only [Checked.map_eq_map, Checked.seq_eq_ap, Checked.value?_map, Checked.value?_ap,
        Option.bind_eq_some_iff, Option.map_eq_some_iff] at h
      obtain ⟨_, ⟨value, -, rfl⟩, count, accepted, rfl⟩ := h
      have := one_le_of_repeatCount accepted
      simp
      omega
    · have pieces := Checked.length_of_all h
      rw [List.length_map] at pieces
      intro empty
      rw [empty, eq_comm, List.length_nil, List.length_eq_zero_iff] at pieces
      exact List.splitOn_ne_nil _ _ pieces

theorem accepted_of_instruction {mnemonic : String} {operands : List Char} {item : Item}
    (h : (instruction mnemonic operands).value? = some item) : item.Suits .text := by
  unfold instruction at h
  split at h
  · simp only [Checked.map_eq_map, Checked.value?_map, Option.map_eq_some_iff] at h
    obtain ⟨bundle, accepted, rfl⟩ := h
    exact ⟨rfl, Operand.accepted_of_check accepted⟩
  · contradiction

/-! ## Warnings -/

theorem warnings_wordValues (operands : List Char) : (wordValues operands).warnings = [] := by
  have value (token : List Char) : (wordValue token).warnings = [] := Checked.warnings_ofOption _ _
  have count (token : List Char) : (repeatCount token).warnings = [] := by
    unfold repeatCount
    split
    · split <;> rfl
    · rfl
  unfold wordValues
  dsimp only
  split
  · rfl
  · split
    · simp [value, count]
    · refine Checked.warnings_all_eq_nil fun checked mem => ?_
      obtain ⟨token, -, rfl⟩ := List.mem_map.mp mem
      exact value _

/-! ## Requests of lines -/

variable {line : SourceLine} {region : Region} {checked : Checked Item}

/-- A line asks for data with `.word` and for an instruction with a mnemonic. -/
theorem ofLine_cases (h : ofLine line = .item region checked) :
    (region = .data ∧ checked = (wordValues line.operands.toList).map .words) ∨
      (region = .text ∧ ∃ mnemonic, line.keyword = some mnemonic ∧
        mnemonic.toList.head? ≠ some '.' ∧
        checked = instruction mnemonic line.operands.toList) := by
  unfold ofLine at h
  split at h
  · contradiction
  · next keyword written =>
    split at h
    · unfold ofDirective at h
      split at h
      · obtain ⟨rfl, rfl⟩ := Request.item.inj h
        exact .inl ⟨rfl, rfl⟩
      · split at h <;> contradiction
    · next undotted =>
      obtain ⟨rfl, rfl⟩ := Request.item.inj h
      exact .inr ⟨rfl, keyword, written, undotted, rfl⟩

/-- A mnemonic with accepted operands asks for their instruction. -/
theorem ofLine_of_check {mnemonic : String} {op : Opcode} {bundle : OperandBundle}
    (written : line.keyword = some mnemonic) (undotted : mnemonic.toList.head? ≠ some '.')
    (known : Opcode.ofName? mnemonic.toList = some op)
    (accepted : (Operand.check op line.operands.toList).value? = some bundle) :
    ofLine line = .item .text
      { result := .ok (.instruction op bundle.operands)
        warnings := (Operand.check op line.operands.toList).warnings } := by
  unfold ofLine instruction
  rw [written]
  dsimp only
  rw [if_neg undotted, known]
  dsimp only
  conv => lhs; rw [Checked.eq_of_value? accepted]
  rfl

/-- A line is refused only for a reason. -/
theorem explained_of_ofLine (h : ofLine line = .item region checked) : checked.Explained := by
  rcases ofLine_cases h with ⟨-, rfl⟩ | ⟨-, mnemonic, -, -, rfl⟩
  · exact (explained_wordValues _).map _
  · exact explained_instruction _ _

/-- What a line is accepted for belongs into the region that it asks for. -/
theorem suits_of_ofLine (h : ofLine line = .item region checked) {item : Item}
    (accepted : checked.value? = some item) : item.Suits region := by
  rcases ofLine_cases h with ⟨rfl, rfl⟩ | ⟨rfl, mnemonic, -, -, rfl⟩
  · rw [Checked.value?_map, Option.map_eq_some_iff] at accepted
    obtain ⟨values, accepted, rfl⟩ := accepted
    exact ⟨rfl, wordValues_ne_nil accepted⟩
  · exact accepted_of_instruction accepted

/-- A line is warned about only for the register that its instruction writes. -/
theorem hardwired_of_mem_warnings (h : ofLine line = .item region checked) {message : Message}
    (mem : message ∈ checked.warnings) : ∃ token, message = .registerHardwired token := by
  rcases ofLine_cases h with ⟨-, rfl⟩ | ⟨-, mnemonic, -, -, rfl⟩
  · simp [warnings_wordValues] at mem
  · unfold instruction at mem
    split at mem
    · exact Operand.hardwired_of_mem_warnings_check (by simpa using mem)
    · simp at mem

end Request

namespace SourceLine

/-! ## Regions -/

theorem region?_eq (line : SourceLine) :
    line.region? =
      match Request.ofLine line with
      | .nothing _ => none
      | .item region _ => some region := by
  unfold region? Request.ofLine
  cases line.keyword with
  | none => rfl
  | some keyword =>
    by_cases dotted : keyword.toList.head? = some '.'
    · by_cases data : keyword = ".word"
      · simp [Request.ofDirective, data]
      · by_cases known : keyword = ".data" ∨ keyword = ".text" ∨ keyword = ".code" <;>
          simp [Request.ofDirective, dotted, data, known]
    · simp [dotted]

theorem region?_eq_some_iff {line : SourceLine} {region : Region} :
    line.region? = some region ↔ ∃ checked, Request.ofLine line = .item region checked := by
  rw [region?_eq]
  cases Request.ofLine line <;> simp

theorem region?_eq_none_iff {line : SourceLine} :
    line.region? = none ↔ ∃ errors, Request.ofLine line = .nothing errors := by
  rw [region?_eq]
  cases Request.ofLine line <;> simp

/-! ## What a line adds -/

theorem item?_of_region? {line : SourceLine} (asks : line.region? = none) : line.item? = none := by
  obtain ⟨errors, asked⟩ := region?_eq_none_iff.mp asks
  unfold item?
  rw [asked]

theorem instruction?_of_region? {line : SourceLine} (asks : line.region? = none) :
    line.instruction? = none := by
  unfold instruction?
  rw [item?_of_region? asks]
  rfl

/-- The item that a line adds belongs into the region that the line asks for. -/
theorem suits_of_item? {line : SourceLine} {item : Item} (h : line.item? = some item) :
    ∃ region, line.region? = some region ∧ item.Suits region := by
  unfold item? at h
  split at h
  · contradiction
  · next region checked asked =>
    exact ⟨region, region?_eq_some_iff.mpr ⟨checked, asked⟩, Request.suits_of_ofLine asked h⟩

/-- A line that is not refused adds the item that it asks for. -/
theorem item_of_accepted {line : SourceLine} {region : Region} (asks : line.region? = some region)
    (accepted : (Request.ofLine line).errors = []) :
    ∃ item, line.item? = some item ∧ item.Suits region := by
  obtain ⟨checked, asked⟩ := region?_eq_some_iff.mp asks
  rw [asked] at accepted
  obtain ⟨item, value⟩ := Request.explained_of_ofLine asked accepted
  refine ⟨item, ?_, Request.suits_of_ofLine asked value⟩
  unfold item?
  rw [asked]
  exact value

theorem values_of_region? {line : SourceLine} (asks : line.region? = none) : line.values = [] := by
  unfold values
  rw [item?_of_region? asks]
  rfl

/-- A line for the instruction region adds no data. -/
theorem values_of_text {line : SourceLine} (asks : line.region? = some .text) :
    line.values = [] := by
  unfold values
  cases found : line.item? with
  | none => rfl
  | some item =>
    obtain ⟨region, asked, suits⟩ := suits_of_item? found
    obtain rfl := Option.some.inj (asked.symm.trans asks)
    cases item with
    | instruction opcode operands => rfl
    | words values => exact absurd suits.1 nofun

/-- A line for the data region adds no instruction. -/
theorem instruction?_of_data {line : SourceLine} (asks : line.region? = some .data) :
    line.instruction? = none := by
  unfold instruction?
  cases found : line.item? with
  | none => rfl
  | some item =>
    obtain ⟨region, asked, suits⟩ := suits_of_item? found
    obtain rfl := Option.some.inj (asked.symm.trans asks)
    cases item with
    | instruction opcode operands => exact absurd suits.1 nofun
    | words values => rfl

/-- An instruction that a line adds carries the number of the line and operands of its opcode. -/
theorem accepted_of_instruction? {line : SourceLine} {inst : Instruction}
    (h : line.instruction? = some inst) :
    inst.operands.Accepted inst.opcode ∧ inst.line = some line.number := by
  obtain ⟨item, found, made⟩ := Option.bind_eq_some_iff.mp h
  unfold item? at found
  split at found
  · contradiction
  · next asked =>
    have suits := Request.suits_of_ofLine asked found
    cases item with
    | words values => contradiction
    | instruction opcode operands =>
      obtain rfl := Option.some.inj made
      exact ⟨suits.2, rfl⟩

/-- An instruction comes from a mnemonic with accepted operands. -/
theorem check_of_instruction? {line : SourceLine} {inst : Instruction}
    (h : line.instruction? = some inst) :
    ∃ mnemonic bundle, line.keyword = some mnemonic ∧ mnemonic.toList.head? ≠ some '.' ∧
      Opcode.ofName? mnemonic.toList = some inst.opcode ∧
      (Operand.check inst.opcode line.operands.toList).value? = some bundle ∧
      inst = { opcode := inst.opcode, operands := bundle.operands, line := some line.number } := by
  obtain ⟨item, found, made⟩ := Option.bind_eq_some_iff.mp h
  unfold item? at found
  split at found
  · contradiction
  · next asked =>
    have suits := Request.suits_of_ofLine asked found
    rcases Request.ofLine_cases asked with ⟨rfl, -⟩ | ⟨rfl, mnemonic, written, undotted, rfl⟩
    · cases item with
      | words values => contradiction
      | instruction opcode operands => exact absurd suits.1 (by decide)
    · unfold Request.instruction at found
      split at found
      · next op known =>
        simp only [Checked.map_eq_map, Checked.value?_map, Option.map_eq_some_iff] at found
        obtain ⟨bundle, accepted, rfl⟩ := found
        obtain rfl := Option.some.inj made
        exact ⟨mnemonic, bundle, written, undotted, known, accepted, rfl⟩
      · contradiction

end SourceLine

end TinyMips
