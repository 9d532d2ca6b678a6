import TinyMips.Proofs.Assembly.Program
import TinyMips.Proofs.Assembly.Spelling
import Mathlib.Data.Bool.AllAny

/-!
# Lines put together from their parts

A line is put together from a label, a keyword, operands and a comment with blanks around them
(`LineText.text`). Cutting it gives these parts back (`LineText.ofText_text`), whatever they contain
that may stand there: a colon in the operands or in a keyword behind a label cuts nothing.

* **what follows the label** — the keyword ends at the first blank (`LineText.ofBody_body`);
* **the label** — it ends at the first colon, and without a label every colon has a blank in front
  of it (`LineText.ofCode_unlabelled`);
* **numbers** — the lines of a source are numbered from 1 without gaps
  (`SourceLine.number_ofSource`).
-/

namespace TinyMips

open SourceLine

/-- The parts of a line as they are written, and the blanks between them. -/
structure LineText where
  /-- The blanks in front of the first part. -/
  indent : List Char := []
  /-- The label without its colon, which follows directly. -/
  label : Option (List Char) := none
  /-- The blanks behind the colon. -/
  gap : List Char := []
  /-- The mnemonic or directive. -/
  keyword : Option (List Char) := none
  /-- The blanks behind the keyword. -/
  space : List Char := []
  /-- The operands. -/
  operands : List Char := []
  /-- The blanks behind the operands. -/
  trail : List Char := []
  /-- The mark that starts the comment, and all text behind it. -/
  comment : Option (Char × List Char) := none

namespace LineText

/-- What stands between the label and the comment. -/
def body (line : LineText) : List Char :=
  line.gap ++ line.keyword.getD [] ++ line.space ++ line.operands ++ line.trail

/-- What stands in front of the comment. -/
def front (line : LineText) : List Char :=
  match line.label with
  | some label => line.indent ++ label ++ ':' :: line.body
  | none => line.indent ++ line.body

/-- The text of the line. -/
def text (line : LineText) : List Char :=
  match line.comment with
  | some (mark, comment) => line.front ++ mark :: comment
  | none => line.front

/-- The parts that the line has. -/
def parts (line : LineText) (number : Nat) : SourceLine :=
  { number
    label := line.label.map fun label => String.ofList (Text.lower label)
    keyword := line.keyword.map fun keyword => String.ofList (Text.lower keyword)
    operands := String.ofList (Text.lower line.operands)
    comment := line.comment.map fun (_, comment) => String.ofList (Text.trim comment) }

/-- Whether every part is one that may stand in its place. -/
structure WellFormed (line : LineText) : Prop where
  /-- Nothing but blanks stands between the parts. -/
  blanks : ∀ c ∈ line.indent ++ line.gap ++ line.space ++ line.trail, Text.isBlank c = true
  /-- A label is a word without colons and comment marks, and does not look like a directive. -/
  label : ∀ label, line.label = some label → label ≠ [] ∧ label.head? ≠ some '.' ∧
    ∀ c ∈ label, Text.isBlank c = false ∧ isMark c = false ∧ c ≠ ':'
  /-- A keyword is a word without comment marks; only behind a label it may have colons. -/
  keyword : ∀ keyword, line.keyword = some keyword → keyword ≠ [] ∧
    (∀ c ∈ keyword, Text.isBlank c = false ∧ isMark c = false) ∧ (line.label = none → ':' ∉ keyword)
  /-- Operands have no comment marks, and no blanks at their ends. -/
  operands : (∀ c ∈ line.operands, isMark c = false) ∧ Text.trim line.operands = line.operands
  /-- Operands follow a keyword, behind a blank. -/
  spaced : line.operands ≠ [] → line.keyword ≠ none ∧ line.space ≠ []
  /-- A comment starts with a comment mark. -/
  comment : ∀ mark comment, line.comment = some (mark, comment) → isMark mark = true

/-! ## What follows the label -/

section Words

variable {word : List Char} (nonempty : word ≠ []) (plain : ∀ c ∈ word, Text.isBlank c = false)
include nonempty plain

theorem cutKeyword_word : cutKeyword word = (some word, []) := by
  unfold cutKeyword
  rw [Text.cut?_of_plain plain]
  simp [nonempty]

omit nonempty in
/-- The keyword ends at the first blank, and the blanks in front of the operands are no part. -/
theorem cutKeyword_spaced {space : List Char} (blank : ∀ c ∈ space, Text.isBlank c = true)
    (filled : space ≠ []) (operands : List Char) :
    cutKeyword (word ++ space ++ operands) = (some word, Text.trim operands) := by
  obtain ⟨c, rest, rfl⟩ := List.exists_cons_of_ne_nil filled
  have joined : word ++ c :: rest ++ operands = word ++ c :: (rest ++ operands) := by simp
  unfold cutKeyword
  rw [joined, Text.cut?_append_cons plain (blank c List.mem_cons_self)]
  dsimp only
  rw [Text.trim_append_left fun c mem => blank c (List.mem_cons_of_mem _ mem)]

/-- Nothing is trimmed off a word and trimmed operands. -/
theorem trim_spaced (space : List Char) {operands : List Char} (given : operands ≠ [])
    (trimmed : Text.trim operands = operands) :
    Text.trim (word ++ space ++ operands) = word ++ space ++ operands := by
  apply Text.trim_of_ends
  · intro c first
    obtain ⟨d, rest, rfl⟩ := List.exists_cons_of_ne_nil nonempty
    obtain rfl : d = c := Option.some.inj first
    exact plain d List.mem_cons_self
  · intro c last
    rw [List.getLast?_append_of_ne_nil _ given] at last
    exact Text.isBlank_getLast_of_trimmed trimmed last

end Words

section Parts

variable {line : LineText} (h : line.WellFormed)
include h

/-- The code between the label and the comment is the keyword and the operands. -/
theorem trim_body :
    Text.trim line.body =
      if line.operands = [] then line.keyword.getD []
      else line.keyword.getD [] ++ line.space ++ line.operands := by
  have blanks := h.blanks
  simp only [List.forall_mem_append] at blanks
  obtain ⟨⟨⟨-, gap⟩, space⟩, trail⟩ := blanks
  have joined : line.body =
      line.gap ++ (line.keyword.getD [] ++ line.space ++ line.operands) ++ line.trail := by
    simp [body]
  rw [joined, Text.trim_append_right trail, Text.trim_append_left gap]
  split
  · next bare =>
    rw [bare, List.append_nil, Text.trim_append_right space]
    cases given : line.keyword with
    | none => rfl
    | some keyword => exact Text.trim_eq_self fun c mem => ((h.keyword keyword given).2.1 c mem).1
  · next given =>
    obtain ⟨keyword, here⟩ := Option.ne_none_iff_exists'.mp (h.spaced given).1
    obtain ⟨nonempty, plain, -⟩ := h.keyword keyword here
    rw [here]
    exact trim_spaced nonempty (fun c mem => (plain c mem).1) _ given h.operands.2

theorem ofBody_body (number : Nat) :
    ofBody number (Text.lower line.body) =
      { number
        keyword := line.keyword.map fun keyword => String.ofList (Text.lower keyword)
        operands := String.ofList (Text.lower line.operands) } := by
  unfold ofBody
  rw [Text.trim_lower, trim_body h]
  cases given : line.keyword with
  | none =>
    have bare : line.operands = [] := by
      by_contra filled
      exact (h.spaced filled).1 given
    rw [if_pos bare, bare]
    rfl
  | some keyword =>
    obtain ⟨nonempty, plain, -⟩ := h.keyword keyword given
    have word : Text.lower keyword ≠ [] := by simpa [Text.lower] using nonempty
    have plain := Text.isBlank_of_mem_lower fun c mem => (plain c mem).1
    by_cases bare : line.operands = []
    · rw [if_pos bare, bare, Option.getD_some, cutKeyword_word word plain]
      rfl
    · have blanks := h.blanks
      simp only [List.forall_mem_append] at blanks
      have space := Text.isBlank_of_mem_lower blanks.1.2
      have filled : Text.lower line.space ≠ [] := by
        simpa [Text.lower] using (h.spaced bare).2
      rw [if_neg bare, Option.getD_some, Text.lower_append, Text.lower_append,
        cutKeyword_spaced plain space filled, Text.trim_lower, h.operands.2]
      rfl

/-! ## The label -/

/-- No comment mark stands in front of the comment. -/
theorem isMark_of_mem_body : ∀ c ∈ line.body, isMark c = false := by
  have blanks := h.blanks
  simp only [List.forall_mem_append] at blanks
  obtain ⟨⟨⟨-, gap⟩, space⟩, trail⟩ := blanks
  have keyword : ∀ c ∈ line.keyword.getD [], isMark c = false := by
    cases given : line.keyword with
    | none => nofun
    | some keyword => exact fun c mem => ((h.keyword keyword given).2.1 c mem).2
  unfold body
  simp only [List.forall_mem_append]
  exact ⟨⟨⟨⟨fun c mem => isMark_of_isBlank (gap c mem), keyword⟩,
    fun c mem => isMark_of_isBlank (space c mem)⟩, h.operands.1⟩,
    fun c mem => isMark_of_isBlank (trail c mem)⟩

theorem isMark_of_mem_front : ∀ c ∈ line.front, isMark c = false := by
  have blanks := h.blanks
  simp only [List.forall_mem_append] at blanks
  have indent : ∀ c ∈ line.indent, isMark c = false := fun c mem =>
    isMark_of_isBlank (blanks.1.1.1 c mem)
  unfold front
  cases given : line.label with
  | none => exact List.forall_mem_append.mpr ⟨indent, isMark_of_mem_body h⟩
  | some label =>
    have plain : ∀ c ∈ label, isMark c = false := fun c mem =>
      ((h.label label given).2.2 c mem).2.1
    simp only [List.forall_mem_append, List.forall_mem_cons]
    exact ⟨⟨indent, plain⟩, rfl, isMark_of_mem_body h⟩

/-- A label in lower case may still stand in front of a colon. -/
theorem isLabelHead_lower {label : List Char} (given : line.label = some label) :
    isLabelHead (Text.lower label) = true := by
  obtain ⟨nonempty, dotless, plain⟩ := h.label label given
  have blankless := Text.isBlank_of_mem_lower fun c mem => (plain c mem).1
  obtain ⟨c, rest, rfl⟩ := List.exists_cons_of_ne_nil nonempty
  have first : c.toLower ≠ '.' := by
    intro dot
    have same : c = '.' := Text.eq_of_toLower dot (by decide)
    exact dotless (congrArg some same)
  have none : (Text.lower (c :: rest)).any Text.isBlank = false := by
    simpa using blankless
  unfold isLabelHead
  rw [none]
  simp [Text.lower, first]

omit h in
/-- A colon behind a blank ends no label. -/
theorem cutLabel_of_blank {front : List Char} (single : ':' ∉ front)
    (blank : ∃ c ∈ front, Text.isBlank c = true) (rest : List Char) :
    (cutLabel (front ++ rest)).1 = none := by
  have refused (more : List Char) : isLabelHead (front ++ more) = false := by
    obtain ⟨c, mem, blank⟩ := blank
    have found : (front ++ more).any Text.isBlank = true :=
      List.any_eq_true.mpr ⟨c, List.mem_append_left _ mem, blank⟩
    simp [isLabelHead, found]
  by_cases colon : ':' ∈ rest
  · obtain ⟨before, after, rfl, first⟩ := List.eq_append_cons_of_mem colon
    have alone : ':' ∉ front ++ before := by simp [single, first]
    rw [← List.append_assoc, cutLabel_append alone, refused before]
    rfl
  · rw [cutLabel_of_single (by simp [single, colon])]

/-- Without a label, no colon of the line ends one. -/
theorem cutLabel_unlabelled (unlabelled : line.label = none) :
    (cutLabel (Text.lower (Text.trim line.body))).1 = none := by
  have single : ':' ∉ line.keyword.getD [] := by
    cases given : line.keyword with
    | none => exact List.not_mem_nil
    | some keyword => exact (h.keyword keyword given).2.2 unlabelled
  rw [trim_body h]
  split
  · rw [cutLabel_of_single (Text.colon_not_mem_lower single)]
  · next filled =>
    have blanks := h.blanks
    simp only [List.forall_mem_append] at blanks
    have blank := Text.isBlank_of_mem_lower blanks.1.2
    obtain ⟨c, rest, here⟩ := List.exists_cons_of_ne_nil (h.spaced filled).2
    have colonless : ':' ∉ line.space := fun mem => by
      have := blanks.1.2 _ mem
      contradiction
    rw [Text.lower_append]
    apply cutLabel_of_blank
    · apply Text.colon_not_mem_lower
      simp [single, colonless]
    · refine ⟨c.toLower, ?_, ?_⟩
      · simp [here, Text.lower]
      · rw [Text.isBlank_toLower, blanks.1.2 c (here ▸ List.mem_cons_self)]

theorem ofCode_front (number : Nat) :
    ofCode number (Text.lower (Text.trim line.front)) =
      { line.parts number with comment := none } := by
  have blanks := h.blanks
  simp only [List.forall_mem_append] at blanks
  unfold front parts
  cases given : line.label with
  | none =>
    dsimp only
    rw [Text.trim_append_left blanks.1.1.1,
      ofCode_of_unlabelled (cutLabel_unlabelled h given)]
    have same : Text.trim (Text.lower (Text.trim line.body)) = Text.trim (Text.lower line.body) := by
      rw [Text.trim_lower, Text.trim_lower, Text.trim_trim]
    rw [ofBody_congr same, ofBody_body h]
    rfl
  | some label =>
    obtain ⟨nonempty, -, plain⟩ := h.label label given
    have single : ':' ∉ Text.lower label :=
      Text.colon_not_mem_lower fun mem => (plain _ mem).2.2 rfl
    have start : Text.trimStart (line.indent ++ label) = label := by
      unfold Text.trimStart
      rw [List.dropWhile_append_of_pos blanks.1.1.1]
      have stops := Text.dropWhile_isBlank_of_not_mem (fun c mem => (plain c mem).1) [] nonempty
      rwa [List.append_nil] at stops
    have cut : Text.lower (Text.trim (line.indent ++ label ++ ':' :: line.body)) =
        Text.lower label ++ ':' :: Text.lower (Text.trimEnd line.body) := by
      rw [Text.trim_append_cons rfl, start, Text.lower_append]
      rfl
    have same : Text.trim (Text.lower (Text.trimEnd line.body)) =
        Text.trim (Text.lower line.body) := by
      rw [Text.trim_lower, Text.trim_lower, Text.trim_trimEnd]
    dsimp only
    rw [cut, ofCode_of_label single (isLabelHead_lower h given), ofBody_congr same, ofBody_body h]
    rfl

/-! ## The whole line -/

theorem cutComment_text :
    cutComment line.text = (line.front, line.comment.map Prod.snd) := by
  have plain := isMark_of_mem_front h
  unfold cutComment text
  cases given : line.comment with
  | none =>
    have uncut : Text.cut? (fun c => c = '#' || c = ';') line.front = none :=
      Text.cut?_of_plain plain
    dsimp only
    rw [uncut]
    rfl
  | some comment =>
    obtain ⟨mark, comment⟩ := comment
    have cut : Text.cut? (fun c => c = '#' || c = ';') (line.front ++ mark :: comment) =
        some (line.front, comment) :=
      Text.cut?_append_cons plain (h.comment mark comment given) comment
    dsimp only
    rw [cut]
    rfl

/-- A line that is put together from parts is cut into these parts. -/
theorem ofText_text (number : Nat) : ofText number line.text = line.parts number := by
  have whole : ofText number line.text =
      { ofCode number (Text.lower (Text.trim line.front)) with
        comment := (line.comment.map Prod.snd).map fun text => String.ofList (Text.trim text) } := by
    unfold ofText ofCode
    rw [cutComment_text h]
  rw [whole, ofCode_front h, Option.map_map]
  rfl

end Parts

end LineText

namespace SourceLine

/-- The lines of a source are numbered one after the other, and every line is cut by itself. -/
theorem getElem?_ofSource (source : String) (i : Nat) :
    (ofSource source)[i]? = (Text.lines source.toList)[i]?.map (ofText (i + 1)) := by
  unfold ofSource
  rw [List.getElem?_mapIdx]

theorem number_ofSource (source : String) :
    (ofSource source).map SourceLine.number = List.range' 1 (ofSource source).length := by
  unfold ofSource
  apply List.ext_getElem
  · rw [List.length_map, List.length_range']
  · intro i _ _
    rw [List.getElem_map, List.getElem_mapIdx, List.getElem_range', number_ofText, Nat.one_mul,
      Nat.add_comm]

end SourceLine

/-- Cutting a line inverts putting it together: whatever its label, keyword, operands and comment
are, and whatever blanks stand around them, they come back in lower case, the comment trimmed. The
lines of a source are cut one by one and are numbered 1, 2, 3, without gaps. -/
theorem LineText.composed_lines_cut_apart (line : LineText) (h : line.WellFormed) (number : Nat) :
    ofText number line.text =
      { number
        label := line.label.map fun label => String.ofList (Text.lower label)
        keyword := line.keyword.map fun keyword => String.ofList (Text.lower keyword)
        operands := String.ofList (Text.lower line.operands)
        comment := line.comment.map fun (_, comment) => String.ofList (Text.trim comment) } ∧
    ∀ source : String,
      (ofSource source).map SourceLine.number = List.range' 1 (ofSource source).length ∧
      ∀ i : Nat, (ofSource source)[i]? = (Text.lines source.toList)[i]?.map (ofText (i + 1)) :=
  ⟨ofText_text h number, fun source => ⟨number_ofSource source, getElem?_ofSource source⟩⟩

/-- A keyword follows its label without a blank and has a colon of its own, and so have the operands
and the comment; the blank in front of the comment is no part. -/
theorem LineText.composed_lines_cut_apart_of_colons :
    let line : LineText :=
      { indent := ['\t']
        label := some "Y".toList
        keyword := some ".Word:".toList
        space := ['\u00a0']
        operands := "7 : 0X4".toList
        trail := [' ']
        comment := some (';', " Z: #two ".toList) }
    line.WellFormed ∧ line.text = "\tY:.Word:\u00a07 : 0X4 ; Z: #two ".toList ∧
      ofText 3 line.text =
        { number := 3
          label := some "y"
          keyword := some ".word:"
          operands := "7 : 0x4"
          comment := some "Z: #two" } := by
  intro line
  have well : line.WellFormed := {
    blanks := List.all_iff_forall_prop.mp (by decide)
    label := by
      rintro label ⟨⟩
      exact ⟨by decide, by decide, List.all_iff_forall_prop.mp (by decide)⟩
    keyword := by
      rintro keyword ⟨⟩
      exact ⟨by decide, List.all_iff_forall_prop.mp (by decide), by decide⟩
    operands := ⟨List.all_iff_forall_prop.mp (by decide), by decide⟩
    spaced := by decide
    comment := by
      rintro mark comment ⟨⟩
      decide }
  refine ⟨well, by decide, ?_⟩
  rw [(composed_lines_cut_apart line well 3).1]
  rfl

end TinyMips
