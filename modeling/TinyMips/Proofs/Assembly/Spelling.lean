import TinyMips.Proofs.Assembly.Parts
import TinyMips.Proofs.Text.Spelling

/-!
# The spelling of a line

The parts of a line are decided by its code, which is what is left of its text without the comment,
the blanks at its ends and the letter case (`SourceLine.parts_ofText`):

* **other spellings** — letter case, comments and blanks at the ends keep the code
  (`SourceLine.Respelled.code_eq`);
* **lines without parts** — blanks and a comment are no part (`SourceLine.parts_of_isBlankText`);
* **labels** — a label has the same parts on a line of its own (`SourceLine.parts_of_label`).
-/

namespace TinyMips

namespace SourceLine

/-! ## Code -/

/-- The code of a line: its text without the comment, trimmed and in lower case. -/
def code (raw : List Char) : List Char :=
  Text.lower (Text.trim (cutComment raw).1)

/-- The line of a code, without a comment. -/
def ofCode (number : Nat) (code : List Char) : SourceLine :=
  let (label, rest) := cutLabel code
  let (keyword, operands) := cutKeyword (Text.trim rest)
  { number
    label := label.map String.ofList
    keyword := keyword.map String.ofList
    operands := String.ofList operands }

/-- A line is that of its code, with a comment. -/
theorem exists_ofText (raw : List Char) :
    ∃ comment, ∀ number, ofText number raw = { ofCode number (code raw) with comment } := by
  refine ⟨(cutComment raw).2.map fun text => String.ofList (Text.trim text), fun number => ?_⟩
  unfold ofText ofCode code
  cases cutComment raw with
  | mk front comment => dsimp only

theorem parts_ofText (number : Nat) (raw : List Char) :
    (ofText number raw).parts = (ofCode number (code raw)).parts := by
  obtain ⟨comment, eq⟩ := exists_ofText raw
  rw [eq]
  generalize ofCode number (code raw) = line
  rfl

theorem label_ofText (number : Nat) (raw : List Char) :
    (ofText number raw).label = (cutLabel (code raw)).1.map String.ofList := by
  obtain ⟨comment, eq⟩ := exists_ofText raw
  rw [eq]
  rfl

theorem renumber_ofText (renumbering : Nat → Nat) (number : Nat) (raw : List Char) :
    (ofText number raw).renumber renumbering = ofText (renumbering number) raw := by
  have moved : (ofCode number (code raw)).renumber renumbering =
      ofCode (renumbering number) (code raw) := by
    unfold ofCode
    cases cutLabel (code raw) with
    | mk label rest => rfl
  obtain ⟨comment, eq⟩ := exists_ofText raw
  rw [eq, eq, ← moved]
  generalize ofCode number (code raw) = line
  rfl

/-- Whether a character starts a comment. -/
def isMark (c : Char) : Bool := c = '#' || c = ';'

/-- Whether a text is empty or starts as a comment does. -/
def IsComment : List Char → Prop
  | [] => True
  | mark :: _ => isMark mark = true

theorem isMark_toLower (c : Char) : isMark c.toLower = isMark c := by
  rcases Text.toLower_cases c with same | ⟨low, high, moved⟩
  · rw [same]
  · have plain (d : Char) (low : 65 ≤ d.toNat) : isMark d = false := by
      have first : d ≠ '#' := by rintro rfl; exact absurd low (by decide)
      have second : d ≠ ';' := by rintro rfl; exact absurd low (by decide)
      simp [isMark, first, second]
    rw [plain c low, plain c.toLower (by omega)]

theorem isMark_of_isBlank {c : Char} (blank : Text.isBlank c = true) : isMark c = false := by
  have first : c ≠ '#' := by rintro rfl; contradiction
  have second : c ≠ ';' := by rintro rfl; contradiction
  simp [isMark, first, second]

theorem exists_comment (raw : List Char) :
    ∃ front comment, raw = front ++ comment ∧ (∀ c ∈ front, isMark c = false) ∧
      IsComment comment := by
  refine ⟨raw.takeWhile fun c => !isMark c, raw.dropWhile fun c => !isMark c,
    List.takeWhile_append_dropWhile.symm, ?_, ?_⟩
  · intro c mem
    simpa using List.mem_takeWhile_imp mem
  · have first := List.head?_dropWhile_not (fun c => !isMark c) raw
    cases found : raw.dropWhile fun c => !isMark c with
    | nil => trivial
    | cons mark rest =>
      rw [found] at first
      have marked : isMark mark = true := by simpa using first
      exact marked

/-- The code of a line is in front of its comment. -/
theorem code_append {front comment : List Char} (plain : ∀ c ∈ front, isMark c = false)
    (remark : IsComment comment) :
    code (front ++ comment) = Text.lower (Text.trim front) := by
  unfold code cutComment
  cases comment with
  | nil =>
    have uncut : Text.cut? (fun c => c = '#' || c = ';') front = none := Text.cut?_of_plain plain
    rw [List.append_nil, uncut]
  | cons mark rest =>
    have cut : Text.cut? (fun c => c = '#' || c = ';') (front ++ mark :: rest) =
        some (front, rest) :=
      Text.cut?_append_cons plain remark rest
    rw [cut]

theorem code_of_plain {raw : List Char} (plain : ∀ c ∈ raw, isMark c = false) :
    code raw = Text.lower (Text.trim raw) := by
  have bare : IsComment [] := trivial
  have alone := code_append plain bare
  rwa [List.append_nil] at alone

/-! ## Other spellings -/

/-- Whether two texts of a line are spelled alike but for the letter case outside the comment, the
comment, and blanks at either end. -/
inductive Respelled : List Char → List Char → Prop where
  | refl (raw : List Char) : Respelled raw raw
  | symm {raw raw' : List Char} (h : Respelled raw raw') : Respelled raw' raw
  | trans {raw raw' raw'' : List Char} (h : Respelled raw raw') (h' : Respelled raw' raw'') :
    Respelled raw raw''
  | letters {front front' comment : List Char} (plain : ∀ c ∈ front, isMark c = false)
    (remark : IsComment comment) (same : Text.lower front' = Text.lower front) :
    Respelled (front ++ comment) (front' ++ comment)
  | comment {front comment comment' : List Char} (plain : ∀ c ∈ front, isMark c = false)
    (remark : IsComment comment) (remark' : IsComment comment') :
    Respelled (front ++ comment) (front ++ comment')
  | blanks {front raw back : List Char} (before : ∀ c ∈ front, Text.isBlank c = true)
    (after : ∀ c ∈ back, Text.isBlank c = true) : Respelled raw (front ++ raw ++ back)

/-- Letters of another case start no comment. -/
theorem plain_of_lower {front front' : List Char} (plain : ∀ c ∈ front, isMark c = false)
    (same : Text.lower front' = Text.lower front) : ∀ c ∈ front', isMark c = false := by
  intro c mem
  have lowered : c.toLower ∈ Text.lower front' := List.mem_map_of_mem mem
  rw [same] at lowered
  obtain ⟨d, known, eq⟩ := List.mem_map.mp lowered
  rw [← isMark_toLower, ← eq, isMark_toLower, plain d known]

theorem code_append_blanks {front raw back : List Char}
    (before : ∀ c ∈ front, Text.isBlank c = true) (after : ∀ c ∈ back, Text.isBlank c = true) :
    code (front ++ raw ++ back) = code raw := by
  obtain ⟨first, comment, rfl, plain, remark⟩ := exists_comment raw
  have plainFront : ∀ c ∈ front ++ first, isMark c = false := by
    intro c mem
    rcases List.mem_append.mp mem with blank | code
    · exact isMark_of_isBlank (before c blank)
    · exact plain c code
  cases comment with
  | nil =>
    -- without a comment the blanks at the end are those of the code
    have plainAll : ∀ c ∈ front ++ first ++ back, isMark c = false := by
      intro c mem
      rcases List.mem_append.mp mem with code | blank
      · exact plainFront c code
      · exact isMark_of_isBlank (after c blank)
    rw [List.append_nil, code_of_plain plainAll, code_of_plain plain,
      Text.trim_append_right after, Text.trim_append_left before]
  | cons mark rest =>
    have joined : front ++ (first ++ mark :: rest) ++ back =
        (front ++ first) ++ (mark :: (rest ++ back)) := by
      simp
    have longer : IsComment (mark :: (rest ++ back)) := remark
    rw [joined, code_append plainFront longer, code_append plain remark,
      Text.trim_append_left before]

/-- Texts that are spelled alike have the same code. -/
theorem Respelled.code_eq {raw raw' : List Char} (h : Respelled raw raw') :
    code raw' = code raw := by
  induction h with
  | refl => rfl
  | symm _ ih => exact ih.symm
  | trans _ _ ih ih' => exact ih'.trans ih
  | letters plain remark same =>
    rw [code_append plain remark, code_append (plain_of_lower plain same) remark,
      ← Text.trim_lower, same, Text.trim_lower]
  | comment plain remark remark' => rw [code_append plain remark, code_append plain remark']
  | blanks before after => exact code_append_blanks before after

/-! ## Lines without parts -/

/-- Whether a text has nothing but blanks in front of its comment. -/
def IsBlankText (raw : List Char) : Prop :=
  ∃ front comment, raw = front ++ comment ∧ (∀ c ∈ front, Text.isBlank c = true) ∧
    IsComment comment

theorem parts_of_isBlankText {raw : List Char} (blank : IsBlankText raw) (number : Nat) :
    (ofText number raw).parts = [] := by
  obtain ⟨front, comment, rfl, blank, remark⟩ := blank
  have plain : ∀ c ∈ front, isMark c = false := fun c mem => isMark_of_isBlank (blank c mem)
  rw [parts_ofText, code_append plain remark, Text.trim_of_blank blank]
  rfl

/-! ## Labels on lines of their own -/

/-- The line of what follows a label. -/
def ofBody (number : Nat) (body : List Char) : SourceLine :=
  let (keyword, operands) := cutKeyword (Text.trim body)
  { number, keyword := keyword.map String.ofList, operands := String.ofList operands }

theorem ofBody_congr {body body' : List Char} (same : Text.trim body = Text.trim body')
    (number : Nat) : ofBody number body = ofBody number body' := by
  unfold ofBody
  rw [same]

theorem ofCode_of_unlabelled {code : List Char} (unlabelled : (cutLabel code).1 = none)
    (number : Nat) : ofCode number code = ofBody number code := by
  have whole : cutLabel code = (none, code) := by
    unfold cutLabel at unlabelled ⊢
    split
    · next head rest cut =>
      rw [cut] at unlabelled
      split
      · next labelled => simp [labelled] at unlabelled
      · rfl
    · rfl
  unfold ofCode
  rw [whole]
  rfl

section Label

variable {head : List Char} (single : ':' ∉ head)
include single

theorem cutLabel_append (rest : List Char) :
    cutLabel (head ++ ':' :: rest) =
      if isLabelHead head = true then (some head, rest) else (none, head ++ ':' :: rest) := by
  have plain := Text.decide_eq_false_of_not_mem single
  unfold cutLabel
  rw [Text.cut?_append_cons plain (decide_eq_true rfl) rest]

theorem cutLabel_of_single : cutLabel head = (none, head) := by
  unfold cutLabel
  rw [Text.cut?_of_plain (Text.decide_eq_false_of_not_mem single)]

theorem ofCode_of_label (labelled : isLabelHead head = true) (number : Nat) (rest : List Char) :
    ofCode number (head ++ ':' :: rest) =
      { ofBody number rest with label := some (String.ofList head) } := by
  unfold ofCode
  rw [cutLabel_append single, if_pos labelled]
  rfl

end Label

/-- The code of a line is cut where its text is, at a colon that no comment mark precedes. -/
theorem code_append_colon {front rest comment : List Char} (plain : ∀ c ∈ front, isMark c = false)
    (plainRest : ∀ c ∈ rest, isMark c = false) (remark : IsComment comment) :
    code (front ++ ':' :: (rest ++ comment)) =
      Text.lower (Text.trimStart front) ++ ':' :: Text.lower (Text.trimEnd rest) := by
  have joined : front ++ ':' :: (rest ++ comment) = (front ++ ':' :: rest) ++ comment := by simp
  have plainAll : ∀ c ∈ front ++ ':' :: rest, isMark c = false := by
    intro c mem
    rcases List.mem_append.mp mem with before | after
    · exact plain c before
    · rcases List.mem_cons.mp after with rfl | after
      · rfl
      · exact plainRest c after
  rw [joined, code_append plainAll remark, Text.trim_append_cons rfl]
  simp [Text.lower]

section Split

variable {front rest : List Char} (single : ':' ∉ front)
  (labelled : (ofText 0 (front ++ ':' :: rest)).label ≠ none)
include single labelled

/-- No comment starts in front of a label. -/
theorem plain_of_label : ∀ c ∈ front, isMark c = false := by
  obtain ⟨first, comment, rfl, plain, remark⟩ := exists_comment front
  cases comment with
  | nil => rwa [List.append_nil]
  | cons mark more =>
    have joined : (first ++ mark :: more) ++ ':' :: rest =
        first ++ mark :: (more ++ ':' :: rest) := by
      simp
    have longer : IsComment (mark :: (more ++ ':' :: rest)) := remark
    have alone : ':' ∉ Text.lower (Text.trim first) :=
      Text.colon_not_mem_lower fun mem =>
        single (List.mem_append_left _ (Text.mem_of_mem_trim mem))
    rw [label_ofText, joined, code_append plain longer, cutLabel_of_single alone] at labelled
    exact absurd rfl labelled

theorem isLabelHead_of_label : isLabelHead (Text.lower (Text.trimStart front)) = true := by
  have plain := plain_of_label single labelled
  have alone : ':' ∉ Text.lower (Text.trimStart front) :=
    Text.colon_not_mem_lower fun mem => single (Text.mem_of_mem_trimStart mem)
  obtain ⟨first, comment, rfl, plainRest, remark⟩ := exists_comment rest
  rw [label_ofText, code_append_colon plain plainRest remark, cutLabel_append alone] at labelled
  by_contra other
  rw [if_neg other] at labelled
  exact labelled rfl

/-- The parts of a line with a label are the label and what follows it. -/
theorem ofCode_of_split (number : Nat) {rest comment : List Char}
    (plainRest : ∀ c ∈ rest, isMark c = false) (remark : IsComment comment) :
    ofCode number (code (front ++ ':' :: (rest ++ comment))) =
      { ofBody number (Text.lower (Text.trimEnd rest)) with
        label := some (String.ofList (Text.lower (Text.trimStart front))) } := by
  have alone : ':' ∉ Text.lower (Text.trimStart front) :=
    Text.colon_not_mem_lower fun mem => single (Text.mem_of_mem_trimStart mem)
  rw [code_append_colon (plain_of_label single labelled) plainRest remark]
  exact ofCode_of_label alone (isLabelHead_of_label single labelled) number _

theorem parts_of_labelText (number : Nat) :
    (ofText number (front ++ [':'])).parts =
      [{ number, label := some (String.ofList (Text.lower (Text.trimStart front))) }] := by
  have nothing : ∀ c ∈ ([] : List Char), isMark c = false := nofun
  have remark : IsComment [] := trivial
  have split := ofCode_of_split single labelled number nothing remark
  rw [List.append_nil] at split
  rw [parts_ofText, split]
  rfl

/-- A label has the same parts on a line of its own, directly before the rest of its line, unless
the rest starts with another label. -/
theorem parts_of_label (unlabelled : (ofText 0 rest).label = none) (number : Nat) :
    (ofText number (front ++ ':' :: rest)).parts =
      (ofText number (front ++ [':'])).parts ++ (ofText number rest).parts := by
  rw [parts_of_labelText single labelled, parts_ofText, parts_ofText]
  obtain ⟨first, comment, rfl, plainRest, remark⟩ := exists_comment rest
  rw [label_ofText, Option.map_eq_none_iff] at unlabelled
  rw [ofCode_of_split single labelled number plainRest remark, ofCode_of_unlabelled unlabelled,
    code_append plainRest remark]
  have same : Text.trim (Text.lower (Text.trimEnd first)) =
      Text.trim (Text.lower (Text.trim first)) := by
    rw [Text.trim_lower, Text.trim_lower, Text.trim_trimEnd, Text.trim_trim]
  rw [ofBody_congr same]
  rfl

end Split

end SourceLine

end TinyMips
