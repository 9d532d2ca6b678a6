import TinyMips.Proofs.Assembly.Faults

/-!
# Literals in the place of labels

An operand text is accepted with a label at its end only. With the decimal of a value there instead,
the text is accepted for that value and with the same warnings, if the value is within the bounds of
the opcode (`Operand.check_replaceLast`).
-/

namespace TinyMips.Operand

open Numeral (decimal)

/-! ## Single operands -/

theorem startsNumeric_decimal (value : Int) : StartsNumeric (decimal value) :=
  (looksNumeric_iff (Numeral.trim_decimal value)).mp (Numeral.looksNumeric_decimal value)

theorem literal16_decimal {value : Word} (fits : value.fits16 = true) :
    Literal16 (decimal value.toInt) value :=
  ⟨Numeral.literal?_decimal value, Word.fits16_iff.mp fits⟩

theorem addressLiteral_decimal {region : Region} {high : Int} {value : Word}
    (low : 0 ≤ value.toInt) (le : value.toInt ≤ high) (bound : high < 2 ^ 61)
    (supported : region.Supports value.toBytes.toInt) :
    AddressLiteral region high (decimal value.toInt) value := by
  rw [Word.toInt_toBytes (by omega) (by omega)] at supported
  exact ⟨Numeral.literal?_decimal value, low, le, supported⟩

theorem paren_not_mem_decimal (value : Int) : '(' ∉ decimal value := by
  intro mem
  rcases Numeral.digit_or_minus_of_mem_decimal mem with digit | minus <;> contradiction

/-! ## Whole operand texts -/

/-- Operands with a label have it in their last piece, where a literal can take its place. -/
theorem Spells.literal {op : Opcode} {tokens : List (List Char)} {operands : Operands}
    {name : String} {value : Word} (spelled : Spells op tokens operands)
    (refers : operands.label? = some name)
    (bounds : (operands.withImmediate (.literal value)).Accepted op) :
    ∃ before token, tokens = before ++ [token] ∧
      Spells op (before ++ [decimal value.toInt]) (operands.withImmediate (.literal value)) ∧
      firstWarnings op (before ++ [decimal value.toInt]) = firstWarnings op tokens := by
  have starts := startsNumeric_decimal value.toInt
  cases spelled with
  | none | register | arithmetic => nomatch refers
  | @memory register address rt rs imm mode format named addresses =>
    refine ⟨[register], address, rfl, ?_, rfl⟩
    cases addresses with
    | based => nomatch refers
    | bare =>
      cases bounds with
      | dataAddress _ _ _ low high supported =>
        have reads := addressLiteral_decimal low high (by decide) supported
        exact .memory format named (.bare (paren_not_mem_decimal _) (.literal starts reads))
  | @branch first second destination rs rt imm format read read' =>
    refine ⟨[first, second], destination, rfl, ?_, rfl⟩
    have fits : value.fits16 = true := by
      cases bounds <;> assumption
    exact .branch format read read' (.literal starts (literal16_decimal fits))
  | @jump destination imm format =>
    refine ⟨[], destination, rfl, ?_, ?_⟩
    · cases bounds with
      | target _ _ low high supported =>
        have reads := addressLiteral_decimal low high (by decide) supported
        exact .jump format (.literal starts reads)
    · have reads : ¬op.WritesFirst := by
        rcases Opcode.format_eq_jump_iff.mp format with rfl | rfl <;> decide
      simp [firstWarnings, reads]

/-- A label at the end of an accepted text can be replaced by a value within the bounds. -/
theorem check_replaceLast {op : Opcode} {text : List Char} {bundle : OperandBundle} {name : String}
    {value : Word} (accepted : (check op text).value? = some bundle)
    (refers : bundle.operands.label? = some name)
    (bounds : (bundle.operands.withImmediate (.literal value)).Accepted op) :
    (check op (replaceLast text (decimal value.toInt))).value? =
        some { bundle with operands := bundle.operands.withImmediate (.literal value) } ∧
      (check op (replaceLast text (decimal value.toInt))).warnings = (check op text).warnings := by
  obtain ⟨formatClass, spelled⟩ := value?_check_iff.mp accepted
  obtain ⟨before, token, split, literal, warnings⟩ := spelled.literal refers bounds
  have comma : ',' ∉ decimal value.toInt := by
    intro mem
    rcases Numeral.digit_or_minus_of_mem_decimal mem with digit | minus <;> contradiction
  have replaced := pieces_replaceLast split (Numeral.decimal_ne_nil value.toInt)
    (fun _ => Numeral.isBlank_of_mem_decimal) comma
  rw [← replaced] at literal warnings
  refine ⟨value?_check_iff.mpr ⟨formatClass, literal⟩, ?_⟩
  rw [warnings_check, warnings_check, warnings_ofPieces literal.length,
    warnings_ofPieces spelled.length, warnings]

end TinyMips.Operand
