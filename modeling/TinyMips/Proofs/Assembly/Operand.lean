import TinyMips.Proofs.Assembly.Grammar
import TinyMips.Proofs.Isa.Operands

/-!
# What the operand check accepts

* `Operand.accepted_of_check` puts every accepted operand text into one of the forms of
  `Operands.Accepted`, by what the text spells;
* `Operand.hardwired_of_mem_warnings_check`: an operand text is warned about only for writing `r0`.
-/

namespace TinyMips.Operand

/-! ## Forms -/

theorem AddressLiteral.supported {region : Region} {high : Int} {token : List Char} {value : Word}
    (reads : AddressLiteral region high token value) (bound : high < 2 ^ 61) :
    region.Supports value.toBytes.toInt := by
  obtain ⟨-, low, le, supported⟩ := reads
  rwa [Word.toInt_toBytes (by omega) (by omega)]

/-- What a text spells for an opcode has one of its forms. -/
theorem Spells.accepted {op : Opcode} {tokens : List (List Char)} {operands : Operands}
    (spelled : Spells op tokens operands) : operands.Accepted op := by
  cases spelled with
  | none format => exact .none format
  | register format => exact .register _ _ _ format
  | arithmetic format _ _ reads => exact .arithmetic _ _ _ format (Word.fits16_iff.mpr reads.2)
  | memory format _ addresses =>
    cases addresses with
    | based _ _ offset =>
      exact .offset _ _ _ format (Word.fits16_iff.mpr (bounds_of_offset offset))
    | bare _ destination =>
      cases destination with
      | literal _ reads =>
        exact .dataAddress _ _ format reads.2.1 reads.2.2.1 (reads.supported (by decide))
      | label => exact .dataLabel _ _ format
  | branch format _ _ leads =>
    cases leads with
    | literal _ reads => exact .distance _ _ _ format (Word.fits16_iff.mpr reads.2)
    | label => exact .branchLabel _ _ _ format
  | jump format leads =>
    cases leads with
    | literal _ reads =>
      exact .target _ format reads.2.1 reads.2.2.1 (reads.supported (by decide))
    | label => exact .jumpLabel _ format

/-- An operand text is accepted for operands in one of the forms of its opcode. -/
theorem accepted_of_check {op : Opcode} {text : List Char} {bundle : OperandBundle}
    (h : (check op text).value? = some bundle) : bundle.operands.Accepted op :=
  (value?_check_iff.mp h).2.accepted

/-! ## Warnings -/

section Warnings

variable (token : List Char)

@[simp] theorem warnings_readRegister : (readRegister token).warnings = [] :=
  Checked.warnings_ofOption _ _

@[simp] theorem warnings_signed16 : (signed16 token).warnings = [] := by
  unfold signed16
  split
  · rfl
  · split <;> rfl

@[simp] theorem warnings_wordAddress (region : Region) (high : Nat) :
    (wordAddress region high token).warnings = [] := by
  unfold wordAddress
  split
  · rfl
  · split
    · split <;> rfl
    · rfl

@[simp] theorem warnings_literalOrLabel {literal : List Char → Checked Word}
    (h : (literal token).warnings = []) : (literalOrLabel literal token).warnings = [] := by
  unfold literalOrLabel label
  split
  · exact h
  · dsimp only
    split <;> rfl

@[simp] theorem warnings_memoryOperand : (memoryOperand token).warnings = [] := by
  unfold memoryOperand baseOffset
  split
  · dsimp only
    split
    · split <;> split <;> simp
    · rfl
  · simp

theorem hardwired_of_mem_warnings_writeRegister {message : Message}
    (h : message ∈ (writeRegister token).warnings) :
    message = .registerHardwired (String.ofList token) := by
  unfold writeRegister at h
  dsimp only at h
  split at h
  · simpa using h
  · simp at h

end Warnings

/-- An operand text is warned about only for the register that it writes. -/
theorem hardwired_of_mem_warnings_check {op : Opcode} {text : List Char} {message : Message}
    (h : message ∈ (check op text).warnings) : ∃ token, message = .registerHardwired token := by
  have written (token : List Char) (h : message ∈ (writeRegister token).warnings) :
      ∃ token, message = .registerHardwired token :=
    ⟨_, hardwired_of_mem_warnings_writeRegister token h⟩
  unfold check ofPieces at h
  rw [Checked.warnings_withSummary, Checked.map_eq_map, Checked.warnings_map] at h
  split at h
  -- only the formats that write a register can warn
  all_goals simp at h
  · exact written _ h
  · exact written _ h
  · split at h
    · exact written _ h
    · simp at h

end TinyMips.Operand
