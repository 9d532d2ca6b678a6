import TinyMips.Isa.Disassembly
import TinyMips.Proofs.Assembly.Grammar
import TinyMips.Proofs.Assembly.Spelling
import TinyMips.Proofs.Numeral.Hexadecimal

/-!
# Printed lines

An instruction is printed as its mnemonic and its operands, between which stand commas and blanks:

* **words** — the names of registers, numbers and labels are printed without any character that
  means something to a line (`Printed`);
* **texts** — of such words with commas and blanks between them (`PrintedText`), a line is its code
  alone (`SourceLine.ofText_of_printedText`);
* **operands** — words with a comma and a blank between them are cut into the same words
  (`Operand.pieces_spaced`);
* **lines** — a word and such operands are a line of this keyword and these operands
  (`SourceLine.ofText_spaced`, `SourceLine.ofText_word`).
-/

namespace TinyMips

/-! ## Words -/

/-- Whether a character may stand in a printed word. -/
def isPrinted (c : Char) : Bool :=
  Label.isRest c || c = '(' || c = ')'

/-- Whether a text is a printed word. -/
structure Printed (word : List Char) : Prop where
  nonempty : word ≠ []
  plain : ∀ c ∈ word, isPrinted c = true

section Characters

variable {c : Char}

/-- The code points of printed characters. -/
theorem code_of_isPrinted (printed : isPrinted c = true) :
    c.toNat = 40 ∨ c.toNat = 41 ∨ c.toNat = 45 ∨ c.toNat = 46 ∨
      (48 ≤ c.toNat ∧ c.toNat ≤ 57) ∨ c.toNat = 95 ∨ (97 ≤ c.toNat ∧ c.toNat ≤ 122) := by
  unfold isPrinted Label.isRest at printed
  simp only [Bool.or_eq_true, decide_eq_true_eq] at printed
  rcases printed with ((((((lower | digit) | rfl) | rfl) | rfl) | rfl) | rfl)
  · have range := Numeral.isLower_iff.mp lower
    omega
  · have range := Numeral.isDigit_iff.mp digit
    omega
  all_goals decide

theorem ne_of_isPrinted (printed : isPrinted c = true) {d : Char}
    (other : isPrinted d = false) : c ≠ d := by
  rintro rfl
  rw [printed] at other
  contradiction

theorem isBlank_of_isPrinted (printed : isPrinted c = true) : Text.isBlank c = false := by
  have code := code_of_isPrinted printed
  exact Text.isBlank_of_visible (by omega) (by omega)

theorem isMark_of_isPrinted (printed : isPrinted c = true) : SourceLine.isMark c = false := by
  have first : c ≠ '#' := ne_of_isPrinted printed rfl
  have second : c ≠ ';' := ne_of_isPrinted printed rfl
  simp [SourceLine.isMark, first, second]

theorem toLower_of_isPrinted (printed : isPrinted c = true) : c.toLower = c := by
  rcases Text.toLower_cases c with same | ⟨low, high, -⟩
  · exact same
  · have code := code_of_isPrinted printed
    omega

end Characters

theorem Printed.trim {word : List Char} (printed : Printed word) : Text.trim word = word :=
  Text.trim_eq_self fun c mem => isBlank_of_isPrinted (printed.plain c mem)

theorem printed_decimal (value : Int) : Printed (Numeral.decimal value) where
  nonempty := Numeral.decimal_ne_nil value
  plain c mem := by
    rcases Numeral.digit_or_minus_of_mem_decimal mem with digit | rfl
    · simp [isPrinted, Label.isRest, digit]
    · rfl

theorem printed_hexadecimal (n : Nat) : Printed (Numeral.hexadecimal n) where
  nonempty := List.cons_ne_nil _ _
  plain c mem := by
    rcases Numeral.digit_or_lower_of_mem_hexadecimal mem with digit | lower
    · simp [isPrinted, Label.isRest, digit]
    · simp [isPrinted, Label.isRest, lower]

/-- The characters of a well-formed label may all follow in one. -/
theorem isRest_of_mem_label {text : List Char} (valid : Label.isValid text = true) {c : Char}
    (mem : c ∈ text) : Label.isRest c = true := by
  cases text with
  | nil => nomatch mem
  | cons first rest =>
    obtain ⟨start, others⟩ := Bool.and_eq_true_iff.mp valid
    rcases List.mem_cons.mp mem with rfl | later
    · rcases Bool.or_eq_true_iff.mp start with lower | underscore
      · simp [Label.isRest, lower]
      · simp [Label.isRest, of_decide_eq_true underscore]
    · exact List.all_eq_true.mp others c later

theorem printed_label {text : List Char} (valid : Label.isValid text = true) : Printed text where
  nonempty := by
    rintro rfl
    contradiction
  plain c mem := by simp [isPrinted, isRest_of_mem_label valid mem]

theorem printed_register (r : Reg) : Printed r.text.toList where
  nonempty := by simp [Reg.text]
  plain c mem := by
    simp only [Reg.text, String.toList_append, String.toList_ofList] at mem
    rcases List.mem_append.mp mem with letter | digit
    · obtain rfl : c = 'r' := by simpa using letter
      rfl
    · exact (printed_decimal _).plain c digit

theorem printed_mnemonic (op : Opcode) : Printed op.mnemonic.toList := by
  have plain : op.mnemonic.toList.all isPrinted = true := by
    cases op <;> decide
  have nonempty : op.mnemonic.toList ≠ [] := by
    cases op <;> decide
  exact ⟨nonempty, List.all_eq_true.mp plain⟩

theorem Printed.based {before between : List Char} (offset : Printed before)
    (base : Printed between) : Printed (before ++ '(' :: (between ++ [')'])) where
  nonempty := List.append_ne_nil_of_left_ne_nil offset.nonempty _
  plain c mem := by
    simp only [List.mem_append, List.mem_cons, List.not_mem_nil, or_false] at mem
    rcases mem with own | rfl | own | rfl
    · exact offset.plain c own
    · rfl
    · exact base.plain c own
    · rfl

/-! ## Texts -/

/-- Whether a text is made of printed words, with nothing but commas and blanks between them. -/
structure PrintedText (text : List Char) : Prop where
  nonempty : text ≠ []
  plain : ∀ c ∈ text, isPrinted c = true ∨ c = ',' ∨ c = ' '
  first : ∀ c, text.head? = some c → isPrinted c = true
  last : ∀ c, text.getLast? = some c → isPrinted c = true

theorem Printed.text {word : List Char} (own : Printed word) : PrintedText word where
  nonempty := own.nonempty
  plain c mem := .inl (own.plain c mem)
  first c here := own.plain c (List.mem_of_head? here)
  last c here := own.plain c (List.mem_of_getLast? here)

namespace PrintedText

variable {text : List Char}

theorem append {front back between : List Char} (before : PrintedText front)
    (after : PrintedText back) (apart : ∀ c ∈ between, c = ',' ∨ c = ' ') :
    PrintedText (front ++ between ++ back) where
  nonempty := List.append_ne_nil_of_right_ne_nil _ after.nonempty
  plain c mem := by
    rcases List.mem_append.mp mem with mem | mem
    · rcases List.mem_append.mp mem with mem | mem
      · exact before.plain c mem
      · exact .inr (apart c mem)
    · exact after.plain c mem
  first c here := by
    rw [List.append_assoc, List.head?_append_of_ne_nil _ before.nonempty] at here
    exact before.first c here
  last c here := by
    rw [List.getLast?_append_of_ne_nil _ after.nonempty] at here
    exact after.last c here

theorem trim (printed : PrintedText text) : Text.trim text = text :=
  Text.trim_of_ends (fun c here => isBlank_of_isPrinted (printed.first c here))
    (fun c here => isBlank_of_isPrinted (printed.last c here))

theorem exists_filled (printed : PrintedText text) : ∃ c ∈ text, Text.isBlank c = false := by
  obtain ⟨c, rest, rfl⟩ := List.exists_cons_of_ne_nil printed.nonempty
  exact ⟨c, List.mem_cons_self, isBlank_of_isPrinted (printed.first c rfl)⟩

theorem isMark_of_mem (printed : PrintedText text) :
    ∀ c ∈ text, SourceLine.isMark c = false := by
  intro c mem
  rcases printed.plain c mem with own | rfl | rfl
  · exact isMark_of_isPrinted own
  · rfl
  · rfl

theorem lower (printed : PrintedText text) : Text.lower text = text := by
  refine (List.map_congr_left fun c mem => ?_).trans (List.map_id _)
  rcases printed.plain c mem with own | rfl | rfl
  · exact toLower_of_isPrinted own
  · rfl
  · rfl

theorem colon_not_mem (printed : PrintedText text) : ':' ∉ text :=
  fun mem => absurd (printed.plain ':' mem) (by decide)

end PrintedText

/-! ## Operands -/

namespace Operand

/-- Words with a comma and a blank between them. -/
def spaced (words : List (List Char)) : List Char :=
  [',', ' '].intercalate words

/-- The blanks may be counted to the words that follow them. -/
theorem spaced_cons (first : List Char) (rest : List (List Char)) :
    spaced (first :: rest) = [','].intercalate (first :: rest.map (' ' :: ·)) := by
  unfold spaced
  induction rest generalizing first with
  | nil => rfl
  | cons second rest ih =>
    rw [List.intercalate_cons_cons, ih, List.map_cons, List.intercalate_cons_cons]
    cases rest with
    | nil => simp
    | cons third rest => simp [List.intercalate_cons_cons]

section Spaced

variable {words : List (List Char)} (printed : ∀ word ∈ words, Printed word)
include printed

theorem printedText_spaced (nonempty : words ≠ []) : PrintedText (spaced words) := by
  unfold spaced
  induction words with
  | nil => exact absurd rfl nonempty
  | cons first rest ih =>
    have own := (printed first List.mem_cons_self).text
    cases rest with
    | nil =>
      rw [List.intercalate_singleton]
      exact own
    | cons second rest =>
      have later := ih (fun word mem => printed word (List.mem_cons_of_mem _ mem))
        (List.cons_ne_nil _ _)
      rw [List.intercalate_cons_cons]
      exact own.append later fun c mem => by simpa using mem

/-- Spaced words are cut into the words. -/
theorem pieces_spaced : pieces (spaced words) = words := by
  cases words with
  | nil => rfl
  | cons first rest =>
    have own := printed first List.mem_cons_self
    have plain {word : List Char} (printed : Printed word) : ',' ∉ word := fun mem =>
      absurd (printed.plain _ mem) (by decide)
    have apart : ∀ part ∈ first :: rest.map (' ' :: ·), ',' ∉ part := by
      intro part mem
      rcases List.mem_cons.mp mem with rfl | mem
      · exact plain own
      · obtain ⟨word, within, rfl⟩ := List.mem_map.mp mem
        exact List.not_mem_cons_of_ne_of_not_mem (by decide)
          (plain (printed word (List.mem_cons_of_mem _ within)))
    have blank : ∀ c ∈ [' '], Text.isBlank c = true := by
      intro c mem
      rw [List.mem_singleton.mp mem]
      rfl
    have filled := (printedText_spaced printed (List.cons_ne_nil _ _)).exists_filled
    rw [cutInto_iff.mp (.commas (spaced_cons first rest) apart filled), List.map_cons, own.trim,
      List.map_map]
    congr 1
    refine (List.map_congr_left fun word mem => ?_).trans (List.map_id _)
    exact (Text.trim_append_left blank word).trans
      (printed word (List.mem_cons_of_mem _ mem)).trim

end Spaced

end Operand

/-! ## Lines -/

namespace SourceLine

/-- Printed text has no label and no comment, and lower case leaves it as it is. -/
theorem ofText_of_printedText {raw : List Char} (printed : PrintedText raw) (number : Nat) :
    ofText number raw = ofBody number raw := by
  have uncut : Text.cut? (fun c => c = '#' || c = ';') raw = none :=
    Text.cut?_of_plain printed.isMark_of_mem
  unfold ofText ofBody cutComment
  rw [uncut]
  dsimp only
  rw [printed.trim, printed.lower, cutLabel_of_single printed.colon_not_mem]
  dsimp only
  rw [printed.trim]
  rfl

section Keyword

variable {word : List Char} (own : Printed word)
include own

/-- A printed word is a line of a keyword. -/
theorem ofText_word (number : Nat) :
    ofText number word = { number, keyword := some (String.ofList word) } := by
  have uncut : Text.cut? Text.isBlank word = none :=
    Text.cut?_of_plain fun c mem => isBlank_of_isPrinted (own.plain c mem)
  rw [ofText_of_printedText own.text]
  unfold ofBody cutKeyword
  rw [own.trim, uncut]
  simp [own.nonempty]

/-- A printed word in front of printed operands is their keyword. -/
theorem ofText_spaced (number : Nat) {words : List (List Char)} (nonempty : words ≠ [])
    (printed : ∀ word ∈ words, Printed word) :
    ofText number (word ++ ' ' :: Operand.spaced words) =
      { number, keyword := some (String.ofList word),
        operands := String.ofList (Operand.spaced words) } := by
  have operands := Operand.printedText_spaced printed nonempty
  have blank : ∀ c ∈ [' '], c = ',' ∨ c = ' ' := fun c mem => .inr (List.mem_singleton.mp mem)
  have whole := own.text.append operands blank
  rw [List.append_assoc, List.singleton_append] at whole
  have cut : Text.cut? Text.isBlank (word ++ ' ' :: Operand.spaced words) =
      some (word, Operand.spaced words) :=
    Text.cut?_append_cons (fun c mem => isBlank_of_isPrinted (own.plain c mem)) (by decide) _
  rw [ofText_of_printedText whole]
  unfold ofBody cutKeyword
  rw [whole.trim, cut]
  dsimp only
  rw [operands.trim]
  rfl

end Keyword

end SourceLine

end TinyMips
