import TinyMips.Json.Reader
import TinyMips.Proofs.Numeral.Literal

/-!
# The grammar of JSON

Which texts write a JSON value, as the rules of RFC 8259 over their characters:

* **strings and numbers** — `Json.IsStringBody` for what may stand between quotes, `Json.IsNumber`
  for a sign, digits, a fraction and an exponent;
* **values** — `Json.Spells` with one rule for each kind of value; blanks may stand around the
  elements of an array, and around the keys and the values of an object;
* **documents** — `Json.Document` for a value with blanks around it and nothing else.

A value keeps its strings and numbers as they are written, so a text writes one value at most.
-/

namespace TinyMips.Json

/-! ## Strings and numbers -/

/-- Whether a text has nothing but the blanks between tokens. -/
def IsSpaces (text : List Char) : Prop :=
  ∀ c ∈ text, isSpace c = true

/-- What may stand between the quotes of a string: plain characters, the escapes of one letter, and
those of four hexadecimal digits. -/
inductive IsStringBody : List Char → Prop where
  | nil : IsStringBody []
  | plain {c : Char} {rest : List Char} (visible : 0x20 ≤ c.toNat) (noQuote : c ≠ '"')
    (noEscape : c ≠ '\\') (later : IsStringBody rest) : IsStringBody (c :: rest)
  | escape {c : Char} {rest : List Char} (simple : c ∈ ['"', '\\', '/', 'b', 'f', 'n', 'r', 't'])
    (later : IsStringBody rest) : IsStringBody ('\\' :: c :: rest)
  | unicode {a b c d : Char} {n : Nat} {rest : List Char} (unit : Numeral.IsRun 16 [a, b, c, d] n)
    (later : IsStringBody rest) : IsStringBody ('\\' :: 'u' :: a :: b :: c :: d :: rest)

/-- Whether a text is one or more decimal digits. -/
def IsDigits (text : List Char) : Prop :=
  text ≠ [] ∧ ∀ c ∈ text, c.isDigit = true

/-- The integer part of a number: a zero, or digits that do not start with one. -/
def IsWhole (text : List Char) : Prop :=
  text = ['0'] ∨ IsDigits text ∧ text.head? ≠ some '0'

/-- The fraction of a number, if there is one. -/
def IsFraction (text : List Char) : Prop :=
  text = [] ∨ ∃ digits, IsDigits digits ∧ text = '.' :: digits

/-- The exponent of a number, if there is one. -/
def IsExponent (text : List Char) : Prop :=
  text = [] ∨ ∃ mark sign digits, (mark = 'e' ∨ mark = 'E') ∧
    (sign = [] ∨ sign = ['+'] ∨ sign = ['-']) ∧ IsDigits digits ∧ text = mark :: sign ++ digits

/-- Whether a text is a number without a sign. -/
inductive IsMagnitude : List Char → Prop where
  | mk {whole fraction exponent : List Char} (start : IsWhole whole)
    (middle : IsFraction fraction) (finish : IsExponent exponent) :
    IsMagnitude (whole ++ fraction ++ exponent)

/-- Whether a text is a number. -/
inductive IsNumber : List Char → Prop where
  | plain {text : List Char} (magnitude : IsMagnitude text) : IsNumber text
  | minus {text : List Char} (magnitude : IsMagnitude text) : IsNumber ('-' :: text)

/-! ## Values -/

mutual

/-- Whether a text writes a value. -/
inductive Spells : Json → List Char → Prop where
  | null : Spells .null ['n', 'u', 'l', 'l']
  | truth : Spells (.bool true) ['t', 'r', 'u', 'e']
  | falsehood : Spells (.bool false) ['f', 'a', 'l', 's', 'e']
  | number {literal : List Char} (number : IsNumber literal) :
    Spells (.number (String.ofList literal)) literal
  | string {literal : List Char} (body : IsStringBody literal) :
    Spells (.string (String.ofList literal)) ('"' :: literal ++ ['"'])
  | emptyArray {blanks : List Char} (blank : IsSpaces blanks) :
    Spells (.array []) ('[' :: blanks ++ [']'])
  | array {elements : List Json} {text : List Char} (inside : SpellsElements elements text) :
    Spells (.array elements) ('[' :: text ++ [']'])
  | emptyObject {blanks : List Char} (blank : IsSpaces blanks) :
    Spells (.object []) ('\x7b' :: blanks ++ ['\x7d'])
  | object {members : List (String × Json)} {text : List Char}
    (inside : SpellsMembers members text) :
    Spells (.object members) ('\x7b' :: text ++ ['\x7d'])

/-- Whether a text writes one or more elements with commas between them. -/
inductive SpellsElements : List Json → List Char → Prop where
  | last {value : Json} {before text after : List Char} (blankBefore : IsSpaces before)
    (element : Spells value text) (blankAfter : IsSpaces after) :
    SpellsElements [value] (before ++ text ++ after)
  | cons {value : Json} {rest : List Json} {before text after more : List Char}
    (blankBefore : IsSpaces before) (element : Spells value text) (blankAfter : IsSpaces after)
    (later : SpellsElements rest more) :
    SpellsElements (value :: rest) (before ++ text ++ after ++ ',' :: more)

/-- Whether a text writes one or more members with commas between them. -/
inductive SpellsMembers : List (String × Json) → List Char → Prop where
  | last {member : String × Json} {text : List Char} (only : SpellsMember member text) :
    SpellsMembers [member] text
  | cons {member : String × Json} {rest : List (String × Json)} {text more : List Char}
    (first : SpellsMember member text) (later : SpellsMembers rest more) :
    SpellsMembers (member :: rest) (text ++ ',' :: more)

/-- Whether a text writes a member: a key and a value around a colon. -/
inductive SpellsMember : String × Json → List Char → Prop where
  | mk {key before behind ahead text after : List Char} {value : Json}
    (blankBefore : IsSpaces before) (body : IsStringBody key) (blankBehind : IsSpaces behind)
    (blankAhead : IsSpaces ahead) (spelled : Spells value text) (blankAfter : IsSpaces after) :
    SpellsMember (String.ofList key, value)
      (before ++ '"' :: key ++ '"' :: behind ++ ':' :: ahead ++ text ++ after)

end

/-- Whether a text is the document of a value. -/
def Document (value : Json) (text : String) : Prop :=
  ∃ before spelled after, IsSpaces before ∧ Spells value spelled ∧ IsSpaces after ∧
    text.toList = before ++ spelled ++ after

end TinyMips.Json
