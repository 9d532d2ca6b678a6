import TinyMips.Numeral.Literal
import TinyMips.Numeral.Written
import TinyMips.Proofs.Text.Blank

/-!
# Written decimals read back

A decimal as it is written is a literal of the source language with the same value
(`Numeral.literal?_decimal`), and it is recognised as a number wherever a label could stand
(`Numeral.looksNumeric_decimal`).
-/

namespace TinyMips.Numeral

/-! ## Digits -/

theorem isDigit_iff {c : Char} : c.isDigit = true ↔ 48 ≤ c.toNat ∧ c.toNat ≤ 57 := by
  simp only [Char.isDigit, Bool.and_eq_true, decide_eq_true_eq]
  exact Iff.rfl

theorem digit?_of_isDigit {c : Char} (h : c.isDigit = true) :
    digit? 10 c = some (c.toNat - '0'.toNat) := by
  have range := isDigit_iff.mp h
  have small : c.toNat - '0'.toNat < 10 := by
    show c.toNat - 48 < 10
    omega
  have here : '0' ≤ c ∧ c ≤ '9' := range
  unfold digit?
  rw [if_pos here, Option.filter_some, if_pos (by simpa using small)]

theorem foldlM_digits {digits : List Char} (h : ∀ c ∈ digits, c.isDigit = true) (total : Nat) :
    digits.foldlM (fun total c => (digit? 10 c).map (total * 10 + ·)) total =
      some (Nat.ofDigitChars 10 digits total) := by
  induction digits generalizing total with
  | nil => rfl
  | cons c rest ih =>
    have later := ih fun d mem => h d (List.mem_cons_of_mem _ mem)
    rw [List.foldlM_cons, digit?_of_isDigit (h c List.mem_cons_self), Option.map_some,
      Nat.ofDigitChars_cons, Nat.mul_comm 10 total]
    exact later _

theorem isDigit_of_mem_toDigits {n : Nat} {c : Char} (mem : c ∈ Nat.toDigits 10 n) :
    c.isDigit = true :=
  Nat.isDigit_of_mem_toDigits (by decide) (Nat.le_refl _) mem

theorem value?_toDigits (n : Nat) : value? 10 (Nat.toDigits 10 n) = some n := by
  unfold value?
  rw [if_neg (by simp), foldlM_digits fun c => isDigit_of_mem_toDigits,
    Nat.ofDigitChars_ten_toDigits]

/-- Decimal digits are not taken for a hexadecimal literal. -/
theorem magnitude?_toDigits (n : Nat) : magnitude? (Nat.toDigits 10 n) = some n := by
  have digits : ∀ c ∈ Nat.toDigits 10 n, c.isDigit = true := fun c => isDigit_of_mem_toDigits
  rw [← value?_toDigits n]
  generalize Nat.toDigits 10 n = text at *
  unfold magnitude?
  split
  · have := digits 'x' (by simp)
    contradiction
  · have := digits 'X' (by simp)
    contradiction
  · rfl

/-! ## Decimals -/

theorem digit_or_minus_of_mem_decimal {value : Int} {c : Char} (mem : c ∈ decimal value) :
    c.isDigit = true ∨ c = '-' := by
  cases value with
  | ofNat n => exact .inl (isDigit_of_mem_toDigits mem)
  | negSucc n =>
    rcases List.mem_cons.mp mem with rfl | later
    · exact .inr rfl
    · exact .inl (isDigit_of_mem_toDigits later)

theorem decimal_ne_nil (value : Int) : decimal value ≠ [] := by
  cases value with
  | ofNat n => exact Nat.toDigits_ne_nil
  | negSucc n => exact List.cons_ne_nil _ _

theorem isBlank_of_isDigit {c : Char} (h : c.isDigit = true) : Text.isBlank c = false := by
  have range := isDigit_iff.mp h
  exact Text.isBlank_of_visible (by omega) (by omega)

/-- No character of a decimal is blank. -/
theorem isBlank_of_mem_decimal {value : Int} {c : Char} (mem : c ∈ decimal value) :
    Text.isBlank c = false := by
  rcases digit_or_minus_of_mem_decimal mem with digit | rfl
  · exact isBlank_of_isDigit digit
  · rfl

theorem trim_decimal (value : Int) : Text.trim (decimal value) = decimal value :=
  Text.trim_eq_self fun _ => isBlank_of_mem_decimal

theorem looksNumeric_decimal (value : Int) : looksNumeric (decimal value) = true := by
  have characters : ∀ c ∈ decimal value, c.isDigit = true ∨ c = '-' :=
    fun _ => digit_or_minus_of_mem_decimal
  have nonempty := decimal_ne_nil value
  unfold looksNumeric
  rw [trim_decimal]
  generalize decimal value = text at *
  cases text with
  | nil => exact absurd rfl nonempty
  | cons c rest =>
    rcases characters c List.mem_cons_self with digit | rfl
    · simp [digit]
    · rfl

/-- Digits without a sign are read as they stand. -/
theorem integer?_of_digits {text : List Char} (digits : ∀ c ∈ text, c.isDigit = true) :
    integer? text = (magnitude? text).map fun n => (n : Int) := by
  unfold integer?
  rw [Text.trim_eq_self fun c mem => isBlank_of_isDigit (digits c mem)]
  split
  · have := digits '-' List.mem_cons_self
    contradiction
  · have := digits '+' List.mem_cons_self
    contradiction
  · rfl

theorem integer?_decimal (value : Int) : integer? (decimal value) = some value := by
  cases value with
  | ofNat n =>
    rw [decimal, integer?_of_digits fun c => isDigit_of_mem_toDigits, magnitude?_toDigits]
    rfl
  | negSucc n =>
    unfold integer?
    rw [trim_decimal]
    show (magnitude? (Nat.toDigits 10 (n + 1))).map (fun n => -(n : Int)) = _
    rw [magnitude?_toDigits]
    rfl

/-- A decimal within the range of a word is the literal of its value. -/
theorem literal?_decimal (value : Word) : literal? (decimal value.toInt) = some value := by
  have low := value.le_toInt
  have high := value.toInt_lt
  unfold literal? Word.ofInt?
  rw [integer?_decimal, Option.bind_some, if_pos (by omega), Int64.ofInt_toInt]

end TinyMips.Numeral
