import TinyMips.Proofs.Numeral.Decimal

/-!
# Written hexadecimals read back

A number in hexadecimal as it is written is a literal of the source language with the same value
(`Numeral.integer?_hexadecimal`), so that different numbers are written differently
(`Numeral.hexadecimal_injective`).
-/

namespace TinyMips.Numeral

/-! ## Digits -/

theorem digit?_digitChar {d : Nat} (lt : d < 16) : digit? 16 d.digitChar = some d := by
  revert d
  decide

/-- Every hexadecimal digit that is written stands for a number below 16. -/
theorem exists_of_mem_toDigits {n : Nat} {c : Char} (mem : c ∈ Nat.toDigits 16 n) :
    ∃ d < 16, c = d.digitChar := by
  induction n using Nat.strongRecOn with
  | ind n ih =>
    rw [Nat.toDigits_eq_if (by decide)] at mem
    split at mem
    · next small => exact ⟨n, small, List.mem_singleton.mp mem⟩
    · rcases List.mem_append.mp mem with front | last
      · exact ih (n / 16) (by omega) front
      · exact ⟨n % 16, by omega, List.mem_singleton.mp last⟩

/-- The digits of a number are read as the number. -/
theorem foldlM_toDigits (n : Nat) :
    (Nat.toDigits 16 n).foldlM (fun total c => (digit? 16 c).map (total * 16 + ·)) 0 = some n := by
  induction n using Nat.strongRecOn with
  | ind n ih =>
    rw [Nat.toDigits_eq_if (by decide)]
    split
    · next small => simp [digit?_digitChar small]
    · have last : n % 16 < 16 := by omega
      have whole : n / 16 * 16 + n % 16 = n := by omega
      rw [List.foldlM_append, ih (n / 16) (by omega)]
      simp [digit?_digitChar last, whole]

theorem foldlM_zeros (count : Nat) :
    (List.replicate count '0').foldlM (fun total c => (digit? 16 c).map (total * 16 + ·)) 0 =
      some 0 := by
  induction count with
  | zero => rfl
  | succ count ih => exact ih

/-- Zeros in front of a number do not count. -/
theorem value?_padLeft (width n : Nat) :
    value? 16 (padLeft width (Nat.toDigits 16 n)) = some n := by
  unfold value? padLeft
  rw [if_neg (by simp), List.foldlM_append, foldlM_zeros]
  exact foldlM_toDigits n

/-! ## Hexadecimals -/

theorem isLower_iff {c : Char} : c.isLower = true ↔ 97 ≤ c.toNat ∧ c.toNat ≤ 122 := by
  show (decide ('a'.val ≤ c.val) && decide (c.val ≤ 'z'.val)) = true ↔ _
  simp only [Bool.and_eq_true, decide_eq_true_eq]
  exact Iff.rfl

/-- A hexadecimal has digits and lower-case letters only. -/
theorem digit_or_lower_of_mem_hexadecimal {n : Nat} {c : Char} (mem : c ∈ hexadecimal n) :
    c.isDigit = true ∨ c.isLower = true := by
  have digits : ∀ d < 16, d.digitChar.isDigit = true ∨ d.digitChar.isLower = true := by decide
  unfold hexadecimal padLeft at mem
  rcases List.mem_cons.mp mem with rfl | mem
  · exact .inl rfl
  · rcases List.mem_cons.mp mem with rfl | mem
    · exact .inr rfl
    · rcases List.mem_append.mp mem with zero | digit
      · rw [List.eq_of_mem_replicate zero]
        exact .inl rfl
      · obtain ⟨d, lt, rfl⟩ := exists_of_mem_toDigits digit
        exact digits d lt

theorem isBlank_of_mem_hexadecimal {n : Nat} {c : Char} (mem : c ∈ hexadecimal n) :
    Text.isBlank c = false := by
  rcases digit_or_lower_of_mem_hexadecimal mem with digit | lower
  · exact isBlank_of_isDigit digit
  · have range := isLower_iff.mp lower
    exact Text.isBlank_of_visible (by omega) (by omega)

theorem integer?_hexadecimal (n : Nat) : integer? (hexadecimal n) = some (n : Int) := by
  unfold integer?
  rw [Text.trim_eq_self fun _ => isBlank_of_mem_hexadecimal]
  show (value? 16 (padLeft 8 (Nat.toDigits 16 n))).map (fun n => (n : Int)) = _
  rw [value?_padLeft]
  rfl

/-- A hexadecimal is the literal of its value only. -/
theorem toInt_of_hexadecimal {n : Nat} {value : Word}
    (reads : literal? (hexadecimal n) = some value) : value.toInt = n := by
  unfold literal? Word.ofInt? at reads
  rw [integer?_hexadecimal, Option.bind_some] at reads
  split at reads
  · obtain rfl := Option.some.inj reads
    exact Int64.toInt_ofInt_of_le (by omega) (by omega)
  · contradiction

/-- Different numbers are written differently. -/
theorem hexadecimal_injective {m n : Nat} (same : hexadecimal m = hexadecimal n) : m = n := by
  have first := integer?_hexadecimal m
  rw [same, integer?_hexadecimal] at first
  exact (Int.ofNat.inj (Option.some.inj first)).symm

end TinyMips.Numeral
