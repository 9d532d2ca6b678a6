import Mathlib.Logic.Relation
import TinyMips.Proofs.Assembly.Spelling

/-!
# Sources with another layout

What a source is assembled to does not depend on how it is laid out. Rewriting its lines keeps its
parts, and the result follows with the numbers of the lines that the parts are on:

* **the parts of a source** — the texts of its lines decide them, and only by their code
  (`SourceLine.flatMap_parts_ofSource`, `SourceLine.partsFrom_congr`);
* **added lines** — a line of blanks and a comment moves the lines after it down, and a label that
  moves to a line of its own the parts after it (`SourceLine.AddsBlank.partsFrom_eq`,
  `SourceLine.SplitsLabel.partsFrom_eq`);
* **the result** — it is the same for any sequence of rewritings, in either direction, but for the
  numbers of the lines (`Program.ofSource_rewritten`).
-/

namespace TinyMips

/-- The texts of the lines, each up to its newline. The last one is empty where a source ends with a
newline. -/
def Text.pieces (source : String) : List (List Char) :=
  source.toList.splitOn '\n'

namespace SourceLine

/-! ## The parts of a source -/

/-- The parts of some lines, numbered from a number on. -/
def partsFrom (number : Nat) : List (List Char) → List SourceLine
  | [] => []
  | raw :: rest => (ofText number raw).parts ++ partsFrom (number + 1) rest

/-- The parts of a source, with the numbers of their lines. -/
def partsOf (source : String) : List SourceLine :=
  partsFrom 1 (Text.pieces source)

variable (number : Nat)

theorem partsFrom_append (raws more : List (List Char)) :
    partsFrom number (raws ++ more) =
      partsFrom number raws ++ partsFrom (number + raws.length) more := by
  induction raws generalizing number with
  | nil => rfl
  | cons raw rest ih =>
    have later : number + 1 + rest.length = number + (rest.length + 1) := by omega
    rw [List.cons_append, partsFrom, partsFrom, ih, List.append_assoc, List.length_cons, later]

/-- Only the code of a line matters. -/
theorem partsFrom_congr {raws raws' : List (List Char)} (same : raws'.map code = raws.map code) :
    partsFrom number raws' = partsFrom number raws := by
  induction raws generalizing raws' number with
  | nil => rw [List.map_nil, List.map_eq_nil_iff] at same; rw [same]
  | cons raw rest ih =>
    obtain ⟨raw', rest', rfl, here, later⟩ := List.map_eq_cons_iff.mp same
    rw [partsFrom, partsFrom, parts_ofText, parts_ofText, here, ih (number + 1) later]

theorem flatMap_parts_mapIdx (raws : List (List Char)) :
    (raws.mapIdx fun i raw => ofText (i + number) raw).flatMap parts = partsFrom number raws := by
  induction raws generalizing number with
  | nil => rfl
  | cons raw rest ih =>
    have next (i : Nat) : i + 1 + number = i + (number + 1) := by omega
    rw [List.mapIdx_cons, List.flatMap_cons, Nat.zero_add, partsFrom, ← ih (number + 1)]
    simp only [next]

/-- Lines further down have the same parts further down. -/
theorem partsFrom_succ (raws : List (List Char)) :
    partsFrom (number + 1) raws = (partsFrom number raws).map (renumber (· + 1)) := by
  induction raws generalizing number with
  | nil => rfl
  | cons raw rest ih =>
    rw [partsFrom, partsFrom, List.map_append, ih, ← parts_renumber, renumber_ofText]

theorem code_dropReturn (raw : List Char) : code (Text.dropReturn raw) = code raw := by
  unfold Text.dropReturn
  split
  · next ends =>
    have whole : raw.dropLast ++ ['\r'] = raw := List.dropLast_append_getLast? _ ends
    have none : ∀ c ∈ ([] : List Char), Text.isBlank c = true := nofun
    have blank : ∀ c ∈ ['\r'], Text.isBlank c = true := by
      intro c mem
      rw [List.mem_singleton.mp mem]
      rfl
    have same : code ([] ++ raw.dropLast ++ ['\r']) = code raw.dropLast :=
      code_append_blanks none blank
    rw [List.nil_append, whole] at same
    exact same.symm
  · rfl

/-- The endings of lines have no part in a source, nor has what is empty after the last one. -/
theorem partsFrom_lines (text : List Char) :
    partsFrom number (Text.lines text) = partsFrom number (text.splitOn '\n') := by
  unfold Text.lines
  rcases List.eq_nil_or_concat (text.splitOn '\n') with empty | ⟨init, last, split⟩
  · rw [empty]
    rfl
  · have same : (init.map Text.dropReturn).map code = init.map code := by
      rw [List.map_map]
      exact List.map_congr_left fun raw _ => code_dropReturn raw
    have ending : partsFrom (number + init.length) ([last].filter (· ≠ [])) =
        partsFrom (number + init.length) [last] := by
      by_cases empty : last = []
      · subst empty
        rfl
      · rw [List.filter_cons_of_pos (by simpa using empty)]
        rfl
    rw [split, List.concat_eq_append]
    dsimp only
    rw [List.dropLast_concat, List.getLast?_concat, partsFrom_append, partsFrom_append,
      partsFrom_congr number same, List.length_map]
    exact congrArg (partsFrom number init ++ ·) ending

theorem flatMap_parts_ofSource (source : String) :
    (ofSource source).flatMap parts = partsOf source := by
  unfold ofSource partsOf
  rw [flatMap_parts_mapIdx, partsFrom_lines]
  rfl

/-! ## Added lines -/

/-- Whether lines of text become others by a line of blanks and a comment, with a number of lines in
front of it. -/
inductive AddsBlank (count : Nat) : List (List Char) → List (List Char) → Prop where
  | mk (before after : List (List Char)) (raw : List Char) (length : before.length = count)
    (blank : IsBlankText raw) : AddsBlank count (before ++ after) (before ++ raw :: after)

/-- Whether lines of text become others by moving a label to a line of its own, directly before the
rest of its line, with a number of parts up to the label. The rest must not start with a label
itself. -/
inductive SplitsLabel (count : Nat) : List (List Char) → List (List Char) → Prop where
  | mk (before after : List (List Char)) (front rest : List Char) (single : ':' ∉ front)
    (labelled : (ofText 0 (front ++ ':' :: rest)).label ≠ none)
    (unlabelled : (ofText 0 rest).label = none)
    (length : (partsFrom 1 before).length + 1 = count) :
    SplitsLabel count (before ++ (front ++ ':' :: rest) :: after)
      (before ++ (front ++ [':']) :: rest :: after)

theorem number_of_mem_parts {line part : SourceLine} (mem : part ∈ line.parts) :
    part.number = line.number := by
  unfold parts labelPart? itemPart? at mem
  rcases List.mem_append.mp mem with mem | mem
  · obtain ⟨name, -, rfl⟩ := Option.map_eq_some_iff.mp (Option.mem_toList.mp mem)
    rfl
  · obtain ⟨keyword, -, rfl⟩ := Option.map_eq_some_iff.mp (Option.mem_toList.mp mem)
    rfl

theorem bounds_of_mem_partsFrom {raws : List (List Char)} {part : SourceLine}
    (mem : part ∈ partsFrom number raws) :
    number ≤ part.number ∧ part.number < number + raws.length := by
  induction raws generalizing number with
  | nil => contradiction
  | cons raw rest ih =>
    rw [partsFrom, List.mem_append] at mem
    rw [List.length_cons]
    rcases mem with here | later
    · have own : part.number = number := number_of_mem_parts here
      omega
    · have := ih (number + 1) later
      omega

theorem renumber_congr {number number' : Nat → Nat} {line : SourceLine}
    (same : number line.number = number' line.number) :
    line.renumber number = line.renumber number' := by
  unfold renumber
  rw [same]

/-- A blank line moves the lines after it down. -/
theorem AddsBlank.partsFrom_eq {count : Nat} {raws raws' : List (List Char)}
    (h : AddsBlank count raws raws') :
    partsFrom 1 raws' =
      (partsFrom 1 raws).map (renumber fun line => if line ≤ count then line else line + 1) := by
  obtain ⟨before, after, raw, rfl, blank⟩ := h
  have early : (partsFrom 1 before).map
      (renumber fun line => if line ≤ before.length then line else line + 1) =
        partsFrom 1 before := by
    conv_rhs => rw [← List.map_id (partsFrom 1 before)]
    apply List.map_congr_left
    intro part mem
    have := bounds_of_mem_partsFrom 1 mem
    show _ = part.renumber id
    exact renumber_congr (if_pos (by omega))
  have late : (partsFrom (1 + before.length) after).map
      (renumber fun line => if line ≤ before.length then line else line + 1) =
        (partsFrom (1 + before.length) after).map (renumber (· + 1)) := by
    apply List.map_congr_left
    intro part mem
    have := bounds_of_mem_partsFrom _ mem
    exact renumber_congr (if_neg (by omega))
  rw [partsFrom_append, partsFrom_append, partsFrom, parts_of_isBlankText blank, List.nil_append,
    partsFrom_succ (1 + before.length), List.map_append, early, late]

/-- A label on a line of its own moves the parts after it down. -/
theorem SplitsLabel.partsFrom_eq {count : Nat} {raws raws' : List (List Char)}
    (h : SplitsLabel count raws raws') :
    ∃ first last, first.length = count ∧ partsFrom 1 raws = first ++ last ∧
      partsFrom 1 raws' = first ++ last.map (renumber (· + 1)) := by
  obtain ⟨before, after, front, rest, single, labelled, unlabelled, rfl⟩ := h
  refine ⟨partsFrom 1 before ++ (ofText (1 + before.length) (front ++ [':'])).parts,
    (ofText (1 + before.length) rest).parts ++ partsFrom (1 + before.length + 1) after, ?_, ?_, ?_⟩
  · rw [List.length_append, parts_of_labelText single labelled]
    rfl
  · rw [partsFrom_append, partsFrom, parts_of_label single labelled unlabelled]
    simp only [List.append_assoc]
  · rw [partsFrom_append, partsFrom, partsFrom, List.map_append, ← parts_renumber, renumber_ofText,
      partsFrom_succ (1 + before.length + 1)]
    simp only [List.append_assoc]

/-! ## The same parts -/

/-- Whether lines of text become others by one rewriting. -/
inductive Rewrites : List (List Char) → List (List Char) → Prop where
  | respelled {raws raws' : List (List Char)} (h : List.Forall₂ Respelled raws raws') :
    Rewrites raws raws'
  | addsBlank {count : Nat} {raws raws' : List (List Char)} (h : AddsBlank count raws raws') :
    Rewrites raws raws'
  | splitsLabel {count : Nat} {raws raws' : List (List Char)} (h : SplitsLabel count raws raws') :
    Rewrites raws raws'

theorem partsFrom_of_respelled {raws raws' : List (List Char)}
    (h : List.Forall₂ Respelled raws raws') : partsFrom number raws' = partsFrom number raws := by
  apply partsFrom_congr
  induction h with
  | nil => rfl
  | cons here _ ih => rw [List.map_cons, List.map_cons, here.code_eq, ih]

theorem numbered_append_moved (first last : List SourceLine) :
    numbered (first ++ last.map (renumber (· + 1))) = numbered (first ++ last) := by
  -- what numbering forgets is the only difference
  rw [← numbered_map_renumber (fun _ => 0), ← numbered_map_renumber (fun _ => 0) (first ++ last)]
  congr 1
  rw [List.map_append, List.map_append, List.map_map]
  rfl

/-- Where the last of some parts are moved down, so are their numbers. -/
theorem number_of_moved {first last : List SourceLine} {index : Nat} {line : SourceLine}
    (found : (first ++ last.map (renumber (· + 1)))[index]? = some line) :
    (if index < first.length then numberAt (first ++ last) index
      else numberAt (first ++ last) index + 1) = line.number := by
  by_cases early : index < first.length
  · rw [List.getElem?_append_left early, ← List.getElem?_append_left early] at found
    rw [if_pos early, numberAt_of_getElem? found]
  · have late : first.length ≤ index := by omega
    rw [List.getElem?_append_right late, List.getElem?_map,
      ← List.getElem?_append_right late] at found
    obtain ⟨part, own, rfl⟩ := Option.map_eq_some_iff.mp found
    rw [if_neg early, numberAt_of_getElem? own]
    rfl

theorem Rewrites.numbered_eq {raws raws' : List (List Char)} (h : Rewrites raws raws') :
    numbered (partsFrom 1 raws') = numbered (partsFrom 1 raws) := by
  cases h with
  | respelled h => rw [partsFrom_of_respelled 1 h]
  | addsBlank h => rw [h.partsFrom_eq, numbered_map_renumber]
  | splitsLabel h =>
    obtain ⟨first, last, -, before, after⟩ := h.partsFrom_eq
    rw [before, after, numbered_append_moved]

/-- Rewriting any number of times, in either direction, keeps the parts. -/
theorem numbered_eq_of_eqvGen {raws raws' : List (List Char)}
    (h : Relation.EqvGen Rewrites raws raws') :
    numbered (partsFrom 1 raws') = numbered (partsFrom 1 raws) := by
  induction h with
  | rel _ _ h => exact h.numbered_eq
  | refl => rfl
  | symm _ _ _ ih => exact ih.symm
  | trans _ _ _ _ _ ih ih' => exact ih'.trans ih

end SourceLine

namespace Program

open SourceLine

/-- A source is assembled like its parts. -/
theorem ofSource_eq_ofLines (source : String) : ofSource source = ofLines (partsOf source) := by
  unfold ofSource ofLines
  rw [← flatMap_parts_ofSource, Layout.ofLines_flatMap_parts]

/-- A source gives what its parts give, with the numbers of their lines. -/
theorem ofSource_eq_renumberResult (source : String) :
    ofSource source =
      renumberResult (numberAt (partsOf source)) (ofLines (numbered (partsOf source))) := by
  rw [ofSource_eq_ofLines]
  exact ofLines_eq_renumberResult fun _ _ => numberAt_of_getElem?

/-- What a source is assembled to does not depend on how it is laid out: its result, be it a program
or a failure, is the same but for the numbers of the lines. Lines that are spelled otherwise give
the very same result. A line of blanks and a comment, wherever it is added, moves the lines after it
down by one, and a label on a line of its own so moves the parts after it. After any sequence of
these, in either direction, both sources give the result of their common parts, each with the
numbers of its own lines. -/
theorem ofSource_rewritten (source source' : String) :
    (List.Forall₂ Respelled (Text.pieces source) (Text.pieces source') →
        ofSource source' = ofSource source) ∧
      (∀ count, AddsBlank count (Text.pieces source) (Text.pieces source') →
        ofSource source' =
          renumberResult (fun line => if line ≤ count then line else line + 1)
            (ofSource source)) ∧
      (∀ count, SplitsLabel count (Text.pieces source) (Text.pieces source') →
        let number := numberAt (partsOf source)
        let result := ofLines (numbered (partsOf source))
        ofSource source = renumberResult number result ∧
          ofSource source' =
            renumberResult (fun part => if part < count then number part else number part + 1)
              result) ∧
      (Relation.EqvGen Rewrites (Text.pieces source) (Text.pieces source') →
        let result := ofLines (numbered (partsOf source))
        ofSource source = renumberResult (numberAt (partsOf source)) result ∧
          ofSource source' = renumberResult (numberAt (partsOf source')) result) := by
  refine ⟨?_, ?_, ?_, ?_⟩
  · intro respelled
    rw [ofSource_eq_ofLines, ofSource_eq_ofLines, partsOf, partsFrom_of_respelled 1 respelled]
    rfl
  · intro count adds
    rw [ofSource_eq_ofLines, ofSource_eq_ofLines, partsOf, adds.partsFrom_eq, ofLines_renumber]
    rfl
  · intro count splits number result
    refine ⟨ofSource_eq_renumberResult source, ?_⟩
    obtain ⟨first, last, rfl, before, after⟩ := splits.partsFrom_eq
    have before : partsOf source = first ++ last := before
    rw [ofSource_eq_ofLines, partsOf, after, ofLines_eq_renumberResult fun _ _ => number_of_moved,
      numbered_append_moved, ← before]
  · intro rewrites result
    refine ⟨ofSource_eq_renumberResult source, ?_⟩
    have same : numbered (partsOf source') = numbered (partsOf source) :=
      numbered_eq_of_eqvGen rewrites
    rw [ofSource_eq_renumberResult source', same]

/-- A label on a line of its own moves its instruction to the line after it, and letters, comments
and blanks move nothing. -/
theorem ofSource_rewritten_of_moved_label :
    let source := "v: .word 7\nmain: lw r1, V"
    let spelled := "V: .WORD 7#seven\n main: lw r1, V\r"
    let moved := "v: .word 7\nmain:\n lw r1, V"
    let lines (source : String) :=
      (ofSource source).toOption.map fun program =>
        program.text.instructions.toList.map Instruction.line
    lines source = some [some 2] ∧ lines moved = some [some 3] ∧
      ofSource spelled = ofSource source ∧
      ∃ number result, ofSource source = renumberResult number result ∧
        ofSource moved =
          renumberResult (fun part => if part < 3 then number part else number part + 1) result := by
  intro source spelled moved lines
  have pieces : Text.pieces source = ["v: .word 7".toList, "main: lw r1, V".toList] := by
    decide +kernel
  have plain (text : String) (bare : text.toList.any isMark = false) :
      ∀ c ∈ text.toList, isMark c = false := by
    simpa using bare
  have blank (text : List Char) (all : text.all Text.isBlank = true) :
      ∀ c ∈ text, Text.isBlank c = true :=
    List.all_eq_true.mp all
  have respelled : List.Forall₂ Respelled (Text.pieces source) (Text.pieces spelled) := by
    have spelling : Text.pieces spelled =
        ["V: .WORD 7".toList ++ "#seven".toList, " ".toList ++ "main: lw r1, V".toList ++ ['\r']] := by
      decide +kernel
    have letters : Respelled ("v: .word 7".toList ++ []) ("V: .WORD 7".toList ++ []) :=
      .letters (plain _ (by decide +kernel)) trivial (by decide +kernel)
    have remark : Respelled ("V: .WORD 7".toList ++ []) ("V: .WORD 7".toList ++ "#seven".toList) :=
      .comment (plain _ (by decide +kernel)) trivial rfl
    have first := letters.trans remark
    rw [List.append_nil] at first
    rw [pieces, spelling]
    exact .cons first (.cons (.blanks (blank _ rfl) (blank _ rfl)) .nil)
  have splits : SplitsLabel 3 (Text.pieces source) (Text.pieces moved) := by
    have moving : Text.pieces moved =
        ["v: .word 7".toList, "main".toList ++ [':'], " lw r1, V".toList] := by
      decide +kernel
    rw [pieces, moving]
    exact .mk ["v: .word 7".toList] [] "main".toList " lw r1, V".toList (by decide +kernel)
      (by decide +kernel) (by decide +kernel) (by decide +kernel)
  refine ⟨by decide +kernel, by decide +kernel, (ofSource_rewritten source spelled).1 respelled, ?_⟩
  exact ⟨_, _, (ofSource_rewritten source moved).2.2.1 3 splits⟩

end Program

end TinyMips
