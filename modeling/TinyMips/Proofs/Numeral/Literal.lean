import TinyMips.Proofs.Numeral.Hexadecimal
import TinyMips.Proofs.Text.Spelling
import Mathlib.Data.Bool.AllAny
import Mathlib.Data.List.Forall2
import Mathlib.Data.Nat.Digits.Defs

/-!
# Integer literals

What an integer literal is and which integer it stands for, as rules over its characters:

* **digits** — `Numeral.IsDigit` gives a character its place in the digits of a base, and
  `Numeral.IsRun` a run of digits of any length the number that it writes in that base;
* **literals** — `Numeral.IsMagnitude` has the two bases, `Numeral.IsLiteral` the signs.

A token is read as a word exactly if the rules derive the integer of the word
(`Numeral.integer?_eq_some_iff`, `Numeral.literals_exact`). It makes no difference whether the digits
are added up without a bound or in a total that overflows, as long as the bound is above every word
(`Numeral.valueBelow?_eq`).
-/

namespace TinyMips

/-- The word of an integer is the one that stands for it. -/
theorem Word.ofInt?_eq_some_iff {value : Int} {word : Word} :
    ofInt? value = some word ↔ word.toInt = value := by
  have low := word.le_toInt
  have high := word.toInt_lt
  unfold ofInt?
  constructor
  · intro here
    split at here
    · obtain rfl := Option.some.inj here
      exact Int64.toInt_ofInt_of_le (by omega) (by omega)
    · contradiction
  · rintro rfl
    rw [if_pos (by omega), Int64.ofInt_toInt]

namespace Numeral

/-! ## Digits -/

/-- The digits of all bases up to sixteen; the first ones are those of a smaller base. -/
def alphabet : List Char := "0123456789abcdef".toList

/-- Whether a character, in either letter case, is a digit of a base. -/
def IsDigit (base : Nat) (c : Char) (d : Nat) : Prop :=
  d < base ∧ alphabet[d]? = some c.toLower

/-- Whether a text is one or more digits of a base that write a number, its last digit the least
significant. -/
def IsRun (base : Nat) (text : List Char) (n : Nat) : Prop :=
  ∃ digits, digits ≠ [] ∧ List.Forall₂ (IsDigit base) text digits ∧
    n = Nat.ofDigits base digits.reverse

theorem digit?_eq_some_iff {base : Nat} (h : base ≤ 16) {c : Char} {d : Nat} :
    digit? base c = some d ↔ IsDigit base c d := by
  have widened : digit? base c = some d ↔ d < base ∧ digit? 16 c = some d := by
    unfold digit?
    simp only [Option.filter_eq_some_iff, decide_eq_true_eq]
    exact ⟨fun ⟨here, lt⟩ => ⟨lt, here, by omega⟩, fun ⟨lt, here, _⟩ => ⟨here, lt⟩⟩
  rw [widened]
  refine and_congr_right fun lt => ?_
  by_cases ascii : c.toNat < 128
  · have table : ∀ n < 128, ∀ d < 16,
        digit? 16 (Char.ofNat n) = some d ↔ alphabet[d]? = some (Char.ofNat n).toLower := by
      decide +kernel
    have here := table c.toNat ascii d (by omega)
    rwa [Char.ofNat_toNat] at here
  · -- no letter or digit stands beyond ASCII
    have same : c.toLower = c := by
      rcases Text.toLower_cases c with same | ⟨-, high, -⟩
      · exact same
      · omega
    have below : ∀ other ∈ alphabet, other.toNat < 128 := List.all_iff_forall_prop.mp (by decide)
    constructor
    · intro here
      unfold digit? at here
      obtain ⟨here, -⟩ := Option.filter_eq_some_iff.mp here
      have beyond {high : Char} (small : high.toNat < 128) : ¬c ≤ high := fun le =>
        ascii (Nat.lt_of_le_of_lt le small)
      rw [if_neg fun range => beyond (by decide) range.2,
        if_neg fun range => beyond (by decide) range.2,
        if_neg fun range => beyond (by decide) range.2] at here
      exact nomatch here
    · intro here
      rw [same] at here
      exact absurd (below c (List.mem_of_getElem? here)) ascii

theorem foldlM_digits?_eq_some_iff {base : Nat} (h : base ≤ 16) {text : List Char}
    {total n : Nat} :
    text.foldlM (fun total c => (digit? base c).map (total * base + ·)) total = some n ↔
      ∃ digits, List.Forall₂ (IsDigit base) text digits ∧
        n = digits.foldl (fun total d => total * base + d) total := by
  induction text generalizing total with
  | nil =>
    rw [List.foldlM_nil, Option.pure_def, Option.some.injEq]
    constructor
    · rintro rfl
      exact ⟨[], .nil, rfl⟩
    · rintro ⟨digits, run, rfl⟩
      cases run
      rfl
  | cons c rest ih =>
    simp only [List.foldlM_cons, Option.bind_eq_bind, Option.bind_eq_some_iff,
      Option.map_eq_some_iff, ih, digit?_eq_some_iff h, List.forall₂_cons_left_iff]
    constructor
    · rintro ⟨_, ⟨d, digit, rfl⟩, digits, run, rfl⟩
      exact ⟨d :: digits, ⟨d, digits, digit, run, rfl⟩, rfl⟩
    · rintro ⟨_, ⟨d, digits, digit, run, rfl⟩, rfl⟩
      exact ⟨_, ⟨d, digit, rfl⟩, digits, run, rfl⟩

/-- Digits are added up to the number that they write. -/
theorem value?_eq_some_iff {base : Nat} (h : base ≤ 16) {text : List Char} {n : Nat} :
    value? base text = some n ↔ IsRun base text n := by
  have sum (digits : List Nat) :
      digits.foldl (fun total d => total * base + d) 0 = Nat.ofDigits base digits.reverse := by
    rw [Nat.ofDigits_eq_foldr, List.foldr_reverse]
    simp only [Nat.cast_id, Nat.add_comm, Nat.mul_comm]
  unfold value? IsRun
  cases text with
  | nil =>
    simp only [List.isEmpty_nil, if_true, reduceCtorEq, false_iff]
    rintro ⟨digits, nonempty, run, -⟩
    cases run
    exact nonempty rfl
  | cons c rest =>
    rw [List.isEmpty_cons, if_neg Bool.false_ne_true, foldlM_digits?_eq_some_iff h]
    simp only [sum]
    constructor
    · rintro ⟨digits, run, rfl⟩
      refine ⟨digits, ?_, run, rfl⟩
      rintro rfl
      cases run
    · rintro ⟨digits, -, run, rfl⟩
      exact ⟨digits, run, rfl⟩

/-! ## Literals -/

/-- Whether a text is a number without a sign: digits, or `0x` or `0X` and hexadecimal digits. -/
inductive IsMagnitude : List Char → Nat → Prop where
  | decimal {text : List Char} {n : Nat} (run : IsRun 10 text n) : IsMagnitude text n
  | hexadecimal {mark : Char} {text : List Char} {n : Nat} (marked : mark = 'x' ∨ mark = 'X')
    (run : IsRun 16 text n) : IsMagnitude ('0' :: mark :: text) n

/-- Whether a text is an integer literal of a value: a number with one sign at most. -/
inductive IsLiteral : List Char → Int → Prop where
  | plain {text : List Char} {n : Nat} (number : IsMagnitude text n) : IsLiteral text n
  | plus {text : List Char} {n : Nat} (number : IsMagnitude text n) : IsLiteral ('+' :: text) n
  | minus {text : List Char} {n : Nat} (number : IsMagnitude text n) :
    IsLiteral ('-' :: text) (-n)

/-- A run of decimal digits has nothing else. -/
theorem isDigit_of_isRun {text : List Char} {n : Nat} (run : IsRun 10 text n) :
    ∀ c ∈ text, c.isDigit = true := by
  obtain ⟨digits, -, all, -⟩ := run
  induction all with
  | nil => nofun
  | @cons c d _ _ digit _ ih =>
    obtain ⟨small, listed⟩ := digit
    have first : ∀ d < 10, alphabet[d]?.all (fun c => c.isDigit && c.toNat < 97) = true := by
      decide
    have lowered := first d small
    rw [listed, Option.all_some, Bool.and_eq_true, decide_eq_true_eq] at lowered
    -- what is a digit in lower case was one before
    have same : c = c.toLower := Text.eq_of_toLower rfl lowered.2
    have decimal : c.isDigit = true := by
      rw [same]
      exact lowered.1
    exact List.forall_mem_cons.mpr ⟨decimal, ih⟩

theorem magnitude?_eq_some_iff {text : List Char} {n : Nat} :
    magnitude? text = some n ↔ IsMagnitude text n := by
  have decimal : 10 ≤ 16 := by decide
  have hexadecimal : 16 ≤ 16 := Nat.le_refl 16
  constructor
  · intro reads
    unfold magnitude? at reads
    split at reads
    · exact .hexadecimal (.inl rfl) ((value?_eq_some_iff hexadecimal).mp reads)
    · exact .hexadecimal (.inr rfl) ((value?_eq_some_iff hexadecimal).mp reads)
    · exact .decimal ((value?_eq_some_iff decimal).mp reads)
  · intro number
    cases number with
    | hexadecimal marked run =>
      rcases marked with rfl | rfl <;> exact (value?_eq_some_iff hexadecimal).mpr run
    | decimal run =>
      -- a mark of the other base is no decimal digit
      have digits := isDigit_of_isRun run
      unfold magnitude?
      split
      · exact absurd (digits 'x' (by simp)) (by decide)
      · exact absurd (digits 'X' (by simp)) (by decide)
      · exact (value?_eq_some_iff decimal).mpr run

/-- A number has no sign of its own. -/
theorem isDigit_of_isMagnitude {c : Char} {rest : List Char} {n : Nat}
    (number : IsMagnitude (c :: rest) n) : c.isDigit = true := by
  cases number with
  | decimal run => exact isDigit_of_isRun run c List.mem_cons_self
  | hexadecimal => rfl

theorem integer?_eq_some_iff {token : List Char} {value : Int} :
    integer? token = some value ↔ IsLiteral (Text.trim token) value := by
  unfold integer?
  generalize Text.trim token = text
  constructor
  · intro reads
    split at reads
    all_goals
      simp only [Option.map_eq_some_iff, Option.bind_eq_bind, Option.bind_eq_some_iff,
        Option.pure_def, Option.some.injEq] at reads
      obtain ⟨_, ⟨n, number, rfl⟩, rfl⟩ := reads
      rw [magnitude?_eq_some_iff] at number
    · exact .minus number
    · exact .plus number
    · exact .plain number
  · intro literal
    cases literal with
    | plus number => simp [magnitude?_eq_some_iff.mpr number]
    | minus number => simp [magnitude?_eq_some_iff.mpr number]
    | plain number =>
      split
      · exact absurd (isDigit_of_isMagnitude number) (by decide)
      · exact absurd (isDigit_of_isMagnitude number) (by decide)
      · simp [magnitude?_eq_some_iff.mpr number]

/-! ## Totals that overflow -/

/-- The value of digits whose running total is given up where it reaches a bound. -/
def valueBelow? (bound base : Nat) (digits : List Char) : Option Nat :=
  if digits.isEmpty then none
  else digits.foldlM
    (fun total c => ((digit? base c).map (total * base + ·)).filter (· < bound)) 0

section Bounded

variable {bound base : Nat} (positive : 0 < base)
include positive

/-- A total never becomes smaller. -/
theorem le_of_foldlM {digits : List Char} {total n : Nat}
    (sum : digits.foldlM (fun total c => (digit? base c).map (total * base + ·)) total = some n) :
    total ≤ n := by
  induction digits generalizing total with
  | nil => exact Nat.le_of_eq (Option.some.inj sum)
  | cons c rest ih =>
    obtain ⟨next, here, later⟩ := Option.bind_eq_some_iff.mp sum
    obtain ⟨d, -, rfl⟩ := Option.map_eq_some_iff.mp here
    calc total ≤ total * base := Nat.le_mul_of_pos_right total positive
      _ ≤ total * base + d := Nat.le_add_right _ _
      _ ≤ n := ih later

theorem foldlM_below (digits : List Char) {total : Nat} (h : total < bound) :
    digits.foldlM
        (fun total c => ((digit? base c).map (total * base + ·)).filter (· < bound)) total =
      (digits.foldlM (fun total c => (digit? base c).map (total * base + ·)) total).filter
        (· < bound) := by
  induction digits generalizing total with
  | nil => simp [Option.filter_some, h]
  | cons c rest ih =>
    rw [List.foldlM_cons, List.foldlM_cons]
    cases digit? base c with
    | none => rfl
    | some d =>
      rw [Option.map_some, Option.filter_some]
      by_cases below : total * base + d < bound
      · rw [if_pos (decide_eq_true below)]
        exact ih below
      · -- the exact total cannot come back below the bound
        rw [if_neg (by simpa using below)]
        symm
        refine Option.filter_eq_none_iff.mpr fun n sum => ?_
        have le := le_of_foldlM positive sum
        simp only [decide_eq_true_eq]
        omega

/-- A total that overflows loses exactly the values that are not below the bound. -/
theorem valueBelow?_eq (h : 0 < bound) (digits : List Char) :
    valueBelow? bound base digits = (value? base digits).filter (· < bound) := by
  unfold valueBelow? value?
  split
  · rfl
  · exact foldlM_below positive digits h

end Bounded

/-- The value of a number without a sign, with the given reader for the digits of a base. -/
def magnitudeWith? (read? : Nat → List Char → Option Nat) : List Char → Option Nat
  | '0' :: 'x' :: digits => read? 16 digits
  | '0' :: 'X' :: digits => read? 16 digits
  | digits => read? 10 digits

/-- The word of an integer literal, with the given reader for the digits of a base. -/
def literalWith? (read? : Nat → List Char → Option Nat) (token : List Char) : Option Word :=
  match Text.trim token with
  | '-' :: body => (magnitudeWith? read? body).bind fun n => Word.ofInt? (-(n : Int))
  | '+' :: body => (magnitudeWith? read? body).bind fun n => Word.ofInt? n
  | body => (magnitudeWith? read? body).bind fun n => Word.ofInt? n

theorem literalWith?_value? (token : List Char) : literalWith? value? token = literal? token := by
  have same (text : List Char) : magnitudeWith? value? text = magnitude? text := rfl
  unfold literalWith? literal? integer?
  generalize Text.trim token = text
  simp only [same]
  split <;> grind

theorem magnitudeWith?_valueBelow? {bound : Nat} (h : 0 < bound) (text : List Char) :
    magnitudeWith? (valueBelow? bound) text = (magnitudeWith? value? text).filter (· < bound) := by
  unfold magnitudeWith?
  split <;> exact valueBelow?_eq (by decide) h _

/-- Numbers that overflow a total wider than a word are no literals either way. -/
theorem literalWith?_valueBelow? {bound : Nat} (h : 2 ^ 63 < bound) (token : List Char) :
    literalWith? (valueBelow? bound) token = literal? token := by
  have lossless {number : Option Nat} {value : Nat → Int} (size : ∀ n, (value n).natAbs = n) :
      (number.filter (· < bound)).bind (fun n => Word.ofInt? (value n)) =
        number.bind fun n => Word.ofInt? (value n) := by
    cases number with
    | none => rfl
    | some n =>
      rw [Option.filter_some]
      split
      · rfl
      · next large =>
        have outside : Word.ofInt? (value n) = none := by
          have size := size n
          unfold Word.ofInt?
          rw [decide_eq_true_eq] at large
          rw [if_neg (by omega)]
        rw [Option.bind_some, outside]
        rfl
  rw [← literalWith?_value?]
  unfold literalWith?
  split <;> rw [magnitudeWith?_valueBelow? (by omega)] <;> exact lossless (by omega)

/-! ## Literals of words -/

/-- Integer literals, exactly: a token is read as a word if and only if it is, between blanks, a
literal of an integer from `-2 ^ 63` to `2 ^ 63 - 1`, and then for that integer. Adding up the digits
in a total of 128 bits that overflows decides the same. The decimal of every word is read back, and
so is the hexadecimal of every number below `2 ^ 63`. -/
theorem literals_exact :
    (∀ (token : List Char) (value : Int),
      (literal? token).map Int64.toInt = some value ↔
        IsLiteral (Text.trim token) value ∧ -2 ^ 63 ≤ value ∧ value ≤ 2 ^ 63 - 1) ∧
    (∀ token : List Char, literalWith? (valueBelow? (2 ^ 127)) token = literal? token) ∧
    (∀ word : Word, literal? (decimal word.toInt) = some word) ∧
    ∀ n : Nat, n < 2 ^ 63 → literal? (hexadecimal n) = some (Int64.ofNat n) := by
  refine ⟨fun token value => ?_, ?_, literal?_decimal, fun n small => ?_⟩
  · unfold literal?
    simp only [Option.map_eq_some_iff, Option.bind_eq_some_iff, Word.ofInt?_eq_some_iff,
      integer?_eq_some_iff]
    constructor
    · rintro ⟨word, ⟨_, literal, rfl⟩, rfl⟩
      have low := word.le_toInt
      have high := word.toInt_lt
      exact ⟨literal, low, by omega⟩
    · rintro ⟨literal, low, high⟩
      have exact' := Int64.toInt_ofInt_of_le low (by omega)
      exact ⟨Int64.ofInt value, ⟨value, literal, exact'⟩, exact'⟩
  · exact literalWith?_valueBelow? (by decide)
  · unfold literal?
    rw [integer?_hexadecimal, Option.bind_some, Word.ofInt?_eq_some_iff,
      Int64.toInt_ofNat_of_lt small]

/-- The least word is a literal and the number after the greatest is none; zeros in front do not
count, however many they are. -/
theorem literals_exact_of_least_word :
    (literal? "\u00a0-9223372036854775808\t".toList).map Int64.toInt = some (-2 ^ 63) ∧
      literal? "+9223372036854775808".toList = none ∧
      literalWith? (valueBelow? (2 ^ 127)) ('0' :: 'X' :: List.replicate 60 '0' ++ ['f', 'F']) =
        some 255 ∧
      (255 < 2 ^ 63 ∧ literal? "0x000000ff".toList = some 255) := by
  obtain ⟨exactly, total, -, hexadecimals⟩ := literals_exact
  refine ⟨(exactly _ _).mpr ⟨?_, by decide, by decide⟩, ?_, ?_, by decide, ?_⟩
  · exact integer?_eq_some_iff.mp (by decide +kernel)
  · decide +kernel
  · rw [total]
    decide +kernel
  · exact hexadecimals 255 (by decide)

end Numeral

end TinyMips
