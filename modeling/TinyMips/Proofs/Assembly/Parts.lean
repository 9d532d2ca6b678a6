import TinyMips.Proofs.Assembly.Renumber

/-!
# The parts of a source

A line is placed like its label and its item on two lines of their own (`Layout.foldl_place_parts`),
so that a source is assembled like its parts. Their line numbers are a renumbering: a source gives
what its parts give when they are numbered one by one, with the numbers of its lines in it
(`Program.ofLines_eq_renumberResult`).
-/

namespace TinyMips

namespace SourceLine

variable (line : SourceLine)

/-- The line with nothing but its label. -/
def labelPart? : Option SourceLine :=
  line.label.map fun name => { number := line.number, label := some name }

/-- The line with nothing but its keyword and the operands. -/
def itemPart? : Option SourceLine :=
  line.keyword.map fun keyword =>
    { number := line.number, keyword := some keyword, operands := line.operands }

/-- The label of a line and what the line asks for, where it has them. -/
def parts : List SourceLine :=
  line.labelPart?.toList ++ line.itemPart?.toList

theorem parts_renumber (number : Nat → Nat) :
    (line.renumber number).parts = line.parts.map (SourceLine.renumber number) := by
  unfold parts labelPart? itemPart? renumber
  cases line.label <;> cases line.keyword <;> rfl

end SourceLine

/-! ## Placing parts -/

namespace Layout

variable (layout : Layout) (line : SourceLine)

theorem place_labelPart : line.labelPart?.toList.foldl place layout = layout.stage line := by
  unfold SourceLine.labelPart? stage
  cases line.label <;> rfl

/-- The request of a line is that of its item. -/
theorem place_itemPart :
    line.itemPart?.toList.foldl place layout =
      layout.fulfil (line.keyword.getD "") line.number (.ofLine line) := by
  unfold SourceLine.itemPart? Request.ofLine
  cases line.keyword <;> rfl

/-- A line is placed like its parts. -/
theorem foldl_place_parts : line.parts.foldl place layout = layout.place line := by
  unfold SourceLine.parts
  rw [List.foldl_append, place_labelPart, place_itemPart, place_eq]

theorem ofLines_flatMap_parts (lines : List SourceLine) :
    ofLines (lines.flatMap SourceLine.parts) = ofLines lines := by
  unfold ofLines
  simp only [List.foldl_flatMap, foldl_place_parts]

end Layout

/-! ## Numbering parts -/

namespace SourceLine

/-- Lines numbered one by one, from zero. -/
def numbered (lines : List SourceLine) : List SourceLine :=
  lines.mapIdx fun index line => { line with number := index }

/-- The line number of the part at an index. -/
def numberAt (lines : List SourceLine) (index : Nat) : Nat :=
  (lines[index]?.map SourceLine.number).getD 0

/-- Numbering forgets the numbers that were there. -/
theorem numbered_map_renumber (number : Nat → Nat) (lines : List SourceLine) :
    numbered (lines.map (SourceLine.renumber number)) = numbered lines := by
  apply List.ext_getElem?
  intro index
  unfold numbered
  rw [List.getElem?_mapIdx, List.getElem?_mapIdx, List.getElem?_map, Option.map_map]
  rfl

/-- Numbered lines get their own numbers back from whatever knows them. -/
theorem map_renumber_numbered {number : Nat → Nat} {lines : List SourceLine}
    (known : ∀ index line, lines[index]? = some line → number index = line.number) :
    (numbered lines).map (SourceLine.renumber number) = lines := by
  apply List.ext_getElem?
  intro index
  unfold numbered
  rw [List.getElem?_map, List.getElem?_mapIdx, Option.map_map]
  cases found : lines[index]? with
  | none => rfl
  | some line =>
    show some { line with number := number index } = some line
    rw [known index line found]

theorem numberAt_of_getElem? {lines : List SourceLine} {index : Nat} {line : SourceLine}
    (found : lines[index]? = some line) : numberAt lines index = line.number := by
  unfold numberAt
  rw [found]
  rfl

end SourceLine

/-- Lines give what they give when they are numbered one by one, with their own numbers in it. -/
theorem Program.ofLines_eq_renumberResult {number : Nat → Nat} {lines : List SourceLine}
    (known : ∀ index line, lines[index]? = some line → number index = line.number) :
    ofLines lines = renumberResult number (ofLines (SourceLine.numbered lines)) := by
  rw [← ofLines_renumber, SourceLine.map_renumber_numbered known]

end TinyMips
