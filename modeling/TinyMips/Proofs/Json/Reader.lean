import TinyMips.Proofs.Json.Grammar

/-!
# Reading what the grammar derives

The reader accepts every text of the grammar, for the value that it writes:

* **tokens** — a string is read up to its closing quote (`Json.readString?_append`), and a number as
  far as it goes (`Json.readNumber?_append`), whatever follows that cannot belong to it;
* **values** — with enough fuel a value is read in front of any such text
  (`Json.readValue?_append`), together with its elements and members;
* **documents** — there is always enough fuel (`Json.ofDocument?_of_document`).
-/

namespace TinyMips.Json

/-! ## Blanks -/

section Blanks

variable {blanks : List Char} (blank : IsSpaces blanks)
include blank

theorem skipSpace_append (text : List Char) : skipSpace (blanks ++ text) = skipSpace text :=
  List.dropWhile_append_of_pos blank

theorem skipSpace_append_cons {c : Char} (visible : isSpace c = false) (text : List Char) :
    skipSpace (blanks ++ c :: text) = c :: text := by
  rw [skipSpace_append blank]
  exact List.dropWhile_cons_of_neg (by simp [visible])

theorem skipSpace_of_isSpaces : skipSpace blanks = [] :=
  List.dropWhile_eq_nil_iff.mpr blank

end Blanks

theorem skipSpace_skipSpace (text : List Char) : skipSpace (skipSpace text) = skipSpace text :=
  List.dropWhile_idempotent _ text

/-! ## Strings -/

theorem isSome_unit?_iff {a b c d : Char} :
    (unit? a b c d).isSome = true ↔ ∃ n, Numeral.IsRun 16 [a, b, c, d] n := by
  unfold unit?
  simp only [Option.isSome_iff_exists, Numeral.value?_eq_some_iff (Nat.le_refl 16)]

/-- The letters of the short escapes. -/
theorem isSome_simpleEscape?_iff {c : Char} :
    (simpleEscape? c).isSome = true ↔ c ∈ ['"', '\\', '/', 'b', 'f', 'n', 'r', 't'] := by
  unfold simpleEscape?
  split
  · next same => rcases same with rfl | rfl | rfl <;> decide
  · split_ifs <;> simp_all

/-- A string is read up to its closing quote. -/
theorem readString?_append {body : List Char} (h : IsStringBody body) (rest : List Char) :
    readString? (body ++ '"' :: rest) = some (body, rest) := by
  induction h with
  | nil => rfl
  | @plain c more visible noQuote noEscape _ ih =>
    have small : ¬c.toNat < 0x20 := Nat.not_lt.mpr visible
    simp [readString?, noEscape, small, ih]
  | @escape c more simple _ ih =>
    have known := isSome_simpleEscape?_iff.mpr simple
    have short : c ≠ 'u' := by
      rintro rfl
      contradiction
    simp [readString?, short, known, ih]
  | @unicode a b c d n more unit _ ih =>
    have known := isSome_unit?_iff.mpr ⟨n, unit⟩
    simp [readString?, known, ih]

/-! ## Numbers -/

/-- Whether a text does not start with a character that could belong to a number in front of it. -/
def Delimits (text : List Char) : Prop :=
  ∀ c, text.head? = some c → c.isDigit = false ∧ c ≠ '.' ∧ c ≠ 'e' ∧ c ≠ 'E'

theorem readDigits_append {digits rest : List Char} (all : ∀ c ∈ digits, c.isDigit = true)
    (stops : ∀ c, rest.head? = some c → c.isDigit = false) :
    readDigits (digits ++ rest) = (digits, rest) := by
  unfold readDigits
  rw [List.takeWhile_append_of_pos all, List.dropWhile_append_of_pos all]
  cases rest with
  | nil => simp
  | cons c more =>
    have stop := stops c rfl
    simp [stop]

theorem readDigits?_append {digits rest : List Char} (h : IsDigits digits)
    (stops : ∀ c, rest.head? = some c → c.isDigit = false) :
    readDigits? (digits ++ rest) = some (digits, rest) := by
  unfold readDigits?
  rw [readDigits_append h.2 stops]
  simp [h.1]

theorem readWhole?_append {whole rest : List Char} (h : IsWhole whole)
    (stops : ∀ c, rest.head? = some c → c.isDigit = false) :
    readWhole? (whole ++ rest) = some (whole, rest) := by
  rcases h with rfl | ⟨digits, first⟩
  · rfl
  · obtain ⟨c, more, rfl⟩ := List.exists_cons_of_ne_nil digits.1
    have nonzero : c ≠ '0' := by
      rintro rfl
      exact first rfl
    rw [← readDigits?_append digits stops]
    simp [readWhole?, nonzero]

theorem readFraction?_append {fraction rest : List Char} (h : IsFraction fraction)
    (stops : ∀ c, rest.head? = some c → c.isDigit = false ∧ c ≠ '.') :
    readFraction? (fraction ++ rest) = some (fraction, rest) := by
  rcases h with rfl | ⟨digits, run, rfl⟩
  · cases rest with
    | nil => rfl
    | cons c more =>
      have stop := (stops c rfl).2
      simp [readFraction?, stop]
  · rw [List.cons_append, readFraction?,
      readDigits?_append run fun c here => (stops c here).1]
    rfl

theorem readExponent?_append {exponent rest : List Char} (h : IsExponent exponent)
    (stops : Delimits rest) : readExponent? (exponent ++ rest) = some (exponent, rest) := by
  rcases h with rfl | ⟨mark, sign, digits, marked, signed, run, rfl⟩
  · cases rest with
    | nil => rfl
    | cons c more =>
      obtain ⟨-, -, small, capital⟩ := stops c rfl
      simp [readExponent?, small, capital]
  · have digits' := readDigits?_append run fun c here => (stops c here).1
    have sign' : readSign (sign ++ (digits ++ rest)) = (sign, digits ++ rest) := by
      rcases signed with rfl | rfl | rfl
      · obtain ⟨c, more, rfl⟩ := List.exists_cons_of_ne_nil run.1
        have digit := run.2 c List.mem_cons_self
        have plus : c ≠ '+' := by rintro rfl; contradiction
        have minus : c ≠ '-' := by rintro rfl; contradiction
        simp [readSign, plus, minus]
      · rfl
      · rfl
    rw [List.cons_append, List.cons_append, List.append_assoc, readExponent?, if_pos marked, sign']
    simp [digits']

theorem stops_exponent {exponent rest : List Char} (h : IsExponent exponent)
    (stops : Delimits rest) :
    ∀ c, (exponent ++ rest).head? = some c → c.isDigit = false ∧ c ≠ '.' := by
  rcases h with rfl | ⟨mark, sign, digits, marked, -, -, rfl⟩
  · exact fun c here => ⟨(stops c here).1, (stops c here).2.1⟩
  · intro c here
    obtain rfl : mark = c := Option.some.inj here
    rcases marked with rfl | rfl <;> decide

theorem stops_fraction {fraction rest : List Char} (h : IsFraction fraction)
    (stops : ∀ c, rest.head? = some c → c.isDigit = false ∧ c ≠ '.') :
    ∀ c, (fraction ++ rest).head? = some c → c.isDigit = false := by
  rcases h with rfl | ⟨digits, -, rfl⟩
  · exact fun c here => (stops c here).1
  · intro c here
    obtain rfl : '.' = c := Option.some.inj here
    rfl

theorem readMagnitude?_append {text rest : List Char} (h : IsMagnitude text)
    (stops : Delimits rest) : readMagnitude? (text ++ rest) = some (text, rest) := by
  obtain @⟨whole, fraction, exponent, start, middle, finish⟩ := h
  have third := readExponent?_append finish stops
  have stops := stops_exponent finish stops
  have second := readFraction?_append middle stops
  have first := readWhole?_append start (stops_fraction middle stops)
  unfold readMagnitude?
  rw [List.append_assoc, List.append_assoc, first]
  simp [second, third]

/-- A number without a sign starts with a digit. -/
theorem IsMagnitude.head {text : List Char} (h : IsMagnitude text) :
    ∃ c rest, text = c :: rest ∧ c.isDigit = true := by
  obtain ⟨rfl | ⟨digits, -⟩, -, -⟩ := h
  · exact ⟨'0', _, rfl, rfl⟩
  · obtain ⟨c, rest, rfl⟩ := List.exists_cons_of_ne_nil digits.1
    exact ⟨c, _, rfl, digits.2 c List.mem_cons_self⟩

/-- A number is read as far as it goes. -/
theorem readNumber?_append {literal rest : List Char} (h : IsNumber literal)
    (stops : Delimits rest) : readNumber? (literal ++ rest) = some (literal, rest) := by
  cases h with
  | minus magnitude =>
    rw [List.cons_append, readNumber?, readMagnitude?_append magnitude stops]
    rfl
  | plain magnitude =>
    have whole := readMagnitude?_append magnitude stops
    obtain ⟨c, more, rfl, digit⟩ := magnitude.head
    have minus : c ≠ '-' := by
      rintro rfl
      contradiction
    rw [← whole]
    simp [readNumber?, minus]

/-- A number starts with a digit or a minus sign. -/
theorem IsNumber.head {literal : List Char} (h : IsNumber literal) :
    ∃ c rest, literal = c :: rest ∧ (c.isDigit = true ∨ c = '-') := by
  cases h with
  | minus magnitude => exact ⟨'-', _, rfl, .inr rfl⟩
  | plain magnitude =>
    obtain ⟨c, more, rfl, digit⟩ := magnitude.head
    exact ⟨c, more, rfl, .inl digit⟩

/-- So it starts with no other character. -/
theorem ne_of_number_head {c d : Char} (first : c.isDigit = true ∨ c = '-')
    (other : d.isDigit = false) (unsigned : d ≠ '-') : c ≠ d := by
  rintro rfl
  rcases first with digit | minus
  · rw [other] at digit
    contradiction
  · exact unsigned minus

/-! ## Values -/

theorem isSpace_eq_false_iff {c : Char} :
    isSpace c = false ↔ c ≠ ' ' ∧ c ≠ '\t' ∧ c ≠ '\n' ∧ c ≠ '\r' := by
  simp [isSpace, and_assoc]

/-- A value starts with a character that is no blank and closes no array. -/
theorem Spells.head {value : Json} {text : List Char} (h : Spells value text) :
    ∃ c rest, text = c :: rest ∧ isSpace c = false ∧ c ≠ ']' := by
  cases h with
  | number number =>
    obtain ⟨c, rest, rfl, first⟩ := number.head
    have ne {d : Char} := @ne_of_number_head c d first
    exact ⟨c, rest, rfl,
      isSpace_eq_false_iff.mpr ⟨ne rfl (by decide), ne rfl (by decide), ne rfl (by decide),
        ne rfl (by decide)⟩, ne rfl (by decide)⟩
  | null => exact ⟨_, _, rfl, by decide⟩
  | truth => exact ⟨_, _, rfl, by decide⟩
  | falsehood => exact ⟨_, _, rfl, by decide⟩
  | string => exact ⟨_, _, rfl, by decide⟩
  | emptyArray => exact ⟨_, _, rfl, by decide⟩
  | array => exact ⟨_, _, rfl, by decide⟩
  | emptyObject => exact ⟨_, _, rfl, by decide⟩
  | object => exact ⟨_, _, rfl, by decide⟩

/-- The elements of an array start as their first one does. -/
theorem SpellsElements.head {elements : List Json} {text : List Char}
    (h : SpellsElements elements text) :
    ∃ before c rest, IsSpaces before ∧ text = before ++ c :: rest ∧ isSpace c = false ∧ c ≠ ']' := by
  cases h with
  | @last value before text after blankBefore element blankAfter =>
    obtain ⟨c, more, rfl, visible⟩ := element.head
    exact ⟨before, c, more ++ after, blankBefore, by simp, visible⟩
  | @cons value others before text after later blankBefore element blankAfter =>
    obtain ⟨c, more, rfl, visible⟩ := element.head
    exact ⟨before, c, more ++ after ++ ',' :: later, blankBefore, by simp, visible⟩

/-- A member starts with the quote of its key. -/
theorem SpellsMember.head {member : String × Json} {text : List Char}
    (h : SpellsMember member text) :
    ∃ before rest, IsSpaces before ∧ text = before ++ '"' :: rest := by
  obtain @⟨key, before, behind, ahead, text, after, value, blankBefore⟩ := h
  exact ⟨before, key ++ '"' :: behind ++ ':' :: ahead ++ text ++ after, blankBefore, by simp⟩

theorem SpellsMembers.head {members : List (String × Json)} {text : List Char}
    (h : SpellsMembers members text) :
    ∃ before rest, IsSpaces before ∧ text = before ++ '"' :: rest := by
  cases h with
  | last only => exact only.head
  | @cons member others text later first =>
    obtain ⟨before, rest, blankBefore, rfl⟩ := first.head
    exact ⟨before, rest ++ ',' :: later, blankBefore, by simp⟩

theorem skipSpace_spelled {value : Json} {text : List Char} (h : Spells value text)
    {before : List Char} (blank : IsSpaces before) (rest : List Char) :
    skipSpace (before ++ text ++ rest) = text ++ rest := by
  obtain ⟨c, more, rfl, visible, -⟩ := h.head
  rw [List.append_assoc, List.cons_append, skipSpace_append_cons blank visible]

theorem readValue?_number {literal rest : List Char} (h : IsNumber literal)
    (stops : Delimits rest) {before : List Char} (blank : IsSpaces before) (fuel : Nat) :
    readValue? (fuel + 1) (before ++ literal ++ rest) =
      some (.number (String.ofList literal), rest) := by
  have reads := readNumber?_append h stops
  have skipped := skipSpace_spelled (.number h) blank rest
  obtain ⟨c, more, rfl, first⟩ := h.head
  have ne {d : Char} := @ne_of_number_head c d first
  unfold readValue?
  rw [skipped]
  split
  · next same => exact absurd (List.cons.inj same).1 (ne rfl (by decide))
  · next same => exact absurd (List.cons.inj same).1 (ne rfl (by decide))
  · next same => exact absurd (List.cons.inj same).1 (ne rfl (by decide))
  · next same => exact absurd (List.cons.inj same).1 (ne rfl (by decide))
  · next same => exact absurd (List.cons.inj same).1 (ne rfl (by decide))
  · next same => exact absurd (List.cons.inj same).1 (ne rfl (by decide))
  · rw [reads]
    rfl

/-- A value is read over the blanks in front of it. -/
theorem readValue?_skipSpace (fuel : Nat) (text : List Char) :
    readValue? fuel (skipSpace text) = readValue? fuel text := by
  cases fuel with
  | zero => rfl
  | succ fuel =>
    unfold readValue?
    rw [skipSpace_skipSpace]

theorem readElements?_skipSpace (fuel : Nat) (text : List Char) :
    readElements? fuel (skipSpace text) = readElements? fuel text := by
  cases fuel with
  | zero => rfl
  | succ fuel =>
    unfold readElements?
    rw [readValue?_skipSpace]

theorem readMembers?_skipSpace (fuel : Nat) (text : List Char) :
    readMembers? fuel (skipSpace text) = readMembers? fuel text := by
  cases fuel with
  | zero => rfl
  | succ fuel =>
    unfold readMembers?
    rw [skipSpace_skipSpace]

/-- No blank belongs to a number. -/
theorem delimits_append {blanks rest : List Char} (blank : IsSpaces blanks)
    (stops : Delimits rest) : Delimits (blanks ++ rest) := by
  intro c first
  cases blanks with
  | nil => exact stops c first
  | cons d more =>
    obtain rfl : d = c := Option.some.inj first
    have space := blank d List.mem_cons_self
    simp only [isSpace, Bool.or_eq_true, decide_eq_true_eq, or_assoc] at space
    rcases space with rfl | rfl | rfl | rfl <;> decide

/-- Nor does any of the marks between and after values. -/
theorem delimits_cons {c : Char} (mark : c ∈ [',', ']', '\x7d']) (rest : List Char) :
    Delimits (c :: rest) := by
  intro d first
  obtain rfl : c = d := Option.some.inj first
  simp only [List.mem_cons, List.not_mem_nil, or_false] at mark
  rcases mark with rfl | rfl | rfl <;> decide

-- Two units of fuel for each character are enough: the opening bracket of an array or object pays
-- for itself and for starting on what is inside, and each comma for itself and for the rest.
mutual

/-- A value is read over the blanks in front of it, up to what cannot belong to it. -/
theorem readValue?_append {value : Json} {text : List Char} (h : Spells value text) {fuel : Nat}
    (enough : 2 * text.length ≤ fuel) {before rest : List Char} (blank : IsSpaces before)
    (stops : Delimits rest) :
    readValue? fuel (before ++ text ++ rest) = some (value, rest) := by
  obtain ⟨fuel, rfl⟩ : ∃ less, fuel = less + 1 := by
    obtain ⟨c, more, rfl, -⟩ := h.head
    rw [List.length_cons] at enough
    exact ⟨fuel - 1, by omega⟩
  have skipped := skipSpace_spelled h blank rest
  cases h with
  | null =>
    unfold readValue?
    rw [skipped]
    rfl
  | truth =>
    unfold readValue?
    rw [skipped]
    rfl
  | falsehood =>
    unfold readValue?
    rw [skipped]
    rfl
  | number number => exact readValue?_number number stops blank fuel
  | @string literal body =>
    unfold readValue?
    rw [skipped]
    have reads := readString?_append body rest
    simp [reads]
  | @emptyArray blanks blank' =>
    unfold readValue?
    rw [skipped]
    have closed := skipSpace_append_cons blank' (c := ']') rfl rest
    simp [closed]
  | @array elements text inside =>
    have bound : 2 * text.length + 1 ≤ fuel := by
      simp only [List.length_cons, List.length_append] at enough
      omega
    have reads := readElements?_append inside bound rest
    unfold readValue?
    rw [skipped]
    obtain ⟨blanks, c, more, blank', rfl, visible, open'⟩ := inside.head
    rw [← readElements?_skipSpace] at reads
    have inner := skipSpace_append_cons blank' visible (more ++ ']' :: rest)
    simp only [List.append_assoc, List.cons_append, List.nil_append] at reads ⊢
    rw [inner] at reads
    simp [inner, open', reads]
  | @emptyObject blanks blank' =>
    unfold readValue?
    rw [skipped]
    have closed := skipSpace_append_cons blank' (c := '\x7d') rfl rest
    simp [closed]
  | @object members text inside =>
    have bound : 2 * text.length + 1 ≤ fuel := by
      simp only [List.length_cons, List.length_append] at enough
      omega
    have reads := readMembers?_append inside bound rest
    unfold readValue?
    rw [skipped]
    obtain ⟨blanks, more, blank', rfl⟩ := inside.head
    rw [← readMembers?_skipSpace] at reads
    have inner := skipSpace_append_cons blank' (c := '"') rfl (more ++ '\x7d' :: rest)
    simp only [List.append_assoc, List.cons_append, List.nil_append] at reads ⊢
    rw [inner] at reads
    simp [inner, reads]
termination_by 2 * text.length

/-- The elements of an array are read up to its closing bracket. -/
theorem readElements?_append {elements : List Json} {text : List Char}
    (h : SpellsElements elements text) {fuel : Nat} (enough : 2 * text.length + 1 ≤ fuel)
    (rest : List Char) :
    readElements? fuel (text ++ ']' :: rest) = some (elements, rest) := by
  obtain ⟨fuel, rfl⟩ : ∃ less, fuel = less + 1 := ⟨fuel - 1, by omega⟩
  cases h with
  | @last value before text after blankBefore element blankAfter =>
    have closed := skipSpace_append_cons blankAfter (c := ']') rfl rest
    simp only [List.length_append] at enough
    have bound : 2 * text.length ≤ fuel := by omega
    have reads := readValue?_append element bound blankBefore
      (delimits_append blankAfter (delimits_cons (c := ']') (by decide) rest))
    unfold readElements?
    rw [List.append_assoc, reads]
    simp [closed]
  | @cons value others before text after more blankBefore element blankAfter later =>
    have comma := skipSpace_append_cons blankAfter (c := ',') rfl (more ++ ']' :: rest)
    simp only [List.length_append, List.length_cons] at enough
    have bound : 2 * text.length ≤ fuel ∧ 2 * more.length + 1 ≤ fuel := by omega
    have reads := readValue?_append element bound.1 blankBefore
      (delimits_append blankAfter (delimits_cons (c := ',') (by decide) (more ++ ']' :: rest)))
    have others := readElements?_append later bound.2 rest
    unfold readElements?
    rw [List.append_assoc, List.append_assoc, List.cons_append, reads]
    simp [comma, others]
termination_by 2 * text.length + 1

/-- A member is read up to the mark after it, which decides what follows. -/
theorem readMembers?_member {member : String × Json} {text : List Char}
    (h : SpellsMember member text) {fuel : Nat} (enough : 2 * text.length ≤ fuel) {c : Char}
    (mark : c = ',' ∨ c = '\x7d') (rest : List Char) :
    readMembers? (fuel + 1) (text ++ c :: rest) =
      if c = '\x7d' then some ([member], rest)
      else (readMembers? fuel rest).map fun (members, rest) => (member :: members, rest) := by
  obtain @⟨key, before, behind, ahead, text, after, value, blankBefore, body, blankBehind,
    blankAhead, spelled, blankAfter⟩ := h
  -- the text from each token on, as the reader comes to it
  have quote := skipSpace_append_cons blankBefore (c := '"') rfl
    (key ++ '"' :: (behind ++ ':' :: (ahead ++ text ++ (after ++ c :: rest))))
  have name := readString?_append body (behind ++ ':' :: (ahead ++ text ++ (after ++ c :: rest)))
  have colon := skipSpace_append_cons blankBehind (c := ':') rfl
    (ahead ++ text ++ (after ++ c :: rest))
  have stops : Delimits (after ++ c :: rest) :=
    delimits_append blankAfter (delimits_cons (by rcases mark with rfl | rfl <;> decide) rest)
  simp only [List.length_append, List.length_cons] at enough
  have bound : 2 * text.length ≤ fuel := by omega
  have reads := readValue?_append spelled bound blankAhead stops
  have visible : isSpace c = false := by rcases mark with rfl | rfl <;> rfl
  have next := skipSpace_append_cons blankAfter visible rest
  simp only [List.append_assoc, List.cons_append] at quote name colon reads ⊢
  rw [readMembers?, quote]
  rcases mark with rfl | rfl <;> simp [name, colon, reads, next]
termination_by 2 * text.length

/-- The members of an object are read up to its closing brace. -/
theorem readMembers?_append {members : List (String × Json)} {text : List Char}
    (h : SpellsMembers members text) {fuel : Nat} (enough : 2 * text.length + 1 ≤ fuel)
    (rest : List Char) :
    readMembers? fuel (text ++ '\x7d' :: rest) = some (members, rest) := by
  obtain ⟨fuel, rfl⟩ : ∃ less, fuel = less + 1 := ⟨fuel - 1, by omega⟩
  cases h with
  | last only => rw [readMembers?_member only (by omega) (.inr rfl) rest, if_pos rfl]
  | @cons member others text more first later =>
    simp only [List.length_append, List.length_cons] at enough
    have bound : 2 * more.length + 1 ≤ fuel := by omega
    have reads := readMembers?_append later bound rest
    rw [List.append_assoc, List.cons_append,
      readMembers?_member first (by omega) (.inl rfl) (more ++ '\x7d' :: rest),
      if_neg (by decide), reads]
    rfl
termination_by 2 * text.length + 1

end

/-! ## Documents -/

/-- There is enough fuel for every document. -/
theorem ofDocument?_of_document {value : Json} {text : String} (h : Document value text) :
    ofDocument? text.toList = some value := by
  obtain ⟨before, spelled, after, blankBefore, spells, blankAfter, same⟩ := h
  have stops : Delimits after := by
    rw [← List.append_nil after]
    exact delimits_append blankAfter (by simp [Delimits])
  rw [same]
  have bound : 2 * spelled.length ≤ 2 * (before ++ spelled ++ after).length + 2 := by
    simp only [List.length_append]
    omega
  have reads := readValue?_append spells bound blankBefore stops
  have ended := skipSpace_of_isSpaces blankAfter
  unfold ofDocument?
  simp only [reads, ended, List.isEmpty_nil, if_true]

end TinyMips.Json
