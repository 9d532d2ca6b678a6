import TinyMips.Proofs.Assembly.Attachment

/-!
# Definitions of labels, by line

The fate of a label is said here on the lines themselves: which line is the first to ask for an
item (`SourceLine.FirstItem`), and how many items of its region the lines before it add
(`SourceLine.count`, `SourceLine.next?`). A label is in the table exactly if a line attaches it
whose definition was accepted (`Layout.get?_ofLines_iff`).
-/

namespace TinyMips

namespace SourceLine

/-! ## Counting items -/

/-- How many items of a region some lines add, whether there is room for them or not. -/
def count (lines : List SourceLine) : Region → Nat
  | .text => (lines.filterMap instruction?).length
  | .data => (lines.flatMap values).length

/-- The address of the next item of a region after some lines, if there is room for it. -/
def next? (lines : List SourceLine) (region : Region) : Option Address :=
  if count lines region < region.capacity then some (region.addressOf (count lines region))
  else none

theorem count_append (lines others : List SourceLine) (region : Region) :
    count (lines ++ others) region = count lines region + count others region := by
  cases region <;> simp [count]

theorem count_eq_zero {lines : List SourceLine} (h : ∀ line ∈ lines, line.region? = none)
    (region : Region) : count lines region = 0 := by
  cases region with
  | text =>
    rw [count, List.length_eq_zero_iff, List.filterMap_eq_nil_iff]
    intro line mem
    exact instruction?_of_region? (h line mem)
  | data =>
    rw [count, List.length_eq_zero_iff, List.flatMap_eq_nil_iff]
    intro line mem
    exact values_of_region? (h line mem)

/-- The instruction of a line comes after those of the lines before it. -/
theorem getElem?_instructions {lines : List SourceLine} {j : Nat} {item : SourceLine}
    (found : lines[j]? = some item) {inst : Instruction} (adds : item.instruction? = some inst) :
    (lines.filterMap instruction?)[count (lines.take j) .text]? = some inst := by
  obtain ⟨lt, rfl⟩ := List.getElem?_eq_some_iff.mp found
  have split : lines = lines.take j ++ lines[j] :: lines.drop (j + 1) := by
    rw [List.getElem_cons_drop, List.take_append_drop]
  unfold count
  conv => lhs; lhs; rw [split]
  rw [List.filterMap_append, List.filterMap_cons, adds, List.getElem?_append_right (Nat.le_refl _),
    Nat.sub_self]
  rfl

/-- The values of a line come after those of the lines before it. -/
theorem getElem?_values {lines : List SourceLine} {j : Nat} {item : SourceLine}
    (found : lines[j]? = some item) (adds : item.values ≠ []) :
    (lines.flatMap values)[count (lines.take j) .data]? = item.values.head? := by
  obtain ⟨lt, rfl⟩ := List.getElem?_eq_some_iff.mp found
  have split : lines = lines.take j ++ lines[j] :: lines.drop (j + 1) := by
    rw [List.getElem_cons_drop, List.take_append_drop]
  obtain ⟨value, rest, eq⟩ := List.exists_cons_of_ne_nil adds
  unfold count
  conv => lhs; lhs; rw [split]
  rw [List.flatMap_append, List.flatMap_cons, List.getElem?_append_right (Nat.le_refl _),
    Nat.sub_self, eq]
  rfl

/-- Items beyond the capacity do not matter for the next address. -/
theorem next?_eq_min (lines : List SourceLine) (region : Region) :
    next? lines region =
      if min 256 (count lines region) < 256 then
        some (region.addressOf (min 256 (count lines region)))
      else none := by
  unfold next? Region.capacity
  by_cases room : count lines region < 256
  · rw [if_pos room, if_pos (by omega), Nat.min_eq_right (by omega)]
  · rw [if_neg room, if_neg (by omega)]

end SourceLine

/-- As many instructions are placed as the lines add and as there is room for. -/
theorem Layout.size_foldl_place (lines : List SourceLine) :
    (lines.foldl place {}).text.size = min 256 (SourceLine.count lines .text) := by
  have size := TextStore.size_foldl_push (lines.filterMap SourceLine.instruction?) {}
  rwa [show ({} : TextStore).size = 0 from rfl, Nat.zero_add, ← text_foldl_place lines {}] at size

/-- As many values are placed as the lines add and as there is room for. -/
theorem Layout.placed_foldl_place (lines : List SourceLine) :
    (lines.foldl place {}).data.placed = min 256 (SourceLine.count lines .data) := by
  have empty : ({} : DataStore).placed ≤ 256 := by decide
  have placed := DataStore.placed_foldl_push empty (lines.flatMap SourceLine.values)
  rwa [show ({} : DataStore).placed = 0 from rfl, Nat.zero_add,
    ← data_foldl_place lines {}] at placed

/-- The layout of some lines has the address free that follows what the lines add. -/
theorem Layout.free?_foldl_place (lines : List SourceLine) (region : Region) :
    (lines.foldl place {}).free? region = SourceLine.next? lines region := by
  rw [SourceLine.next?_eq_min]
  cases region with
  | text =>
    show (lines.foldl place {}).text.free? = _
    rw [TextStore.free?_eq, size_foldl_place]
  | data =>
    show (lines.foldl place {}).data.free? = _
    rw [DataStore.free?_eq, placed_foldl_place]

namespace SourceLine

/-! ## The first item -/

/-- Whether line `j` is the first one from line `i` on that asks for an item. -/
structure FirstItem (lines : List SourceLine) (i j : Nat) (item : SourceLine) (region : Region) :
    Prop where
  le : i ≤ j
  found : lines[j]? = some item
  asks : item.region? = some region
  before (k : Nat) (line : SourceLine) (le : i ≤ k) (lt : k < j) (between : lines[k]? = some line) :
    line.region? = none

variable {lines : List SourceLine} {i j : Nat} {item : SourceLine} {region : Region}

/-- There is at most one first item. -/
theorem FirstItem.unique {j' : Nat} {item' : SourceLine} {region' : Region}
    (h : FirstItem lines i j item region) (h' : FirstItem lines i j' item' region') :
    j = j' ∧ item = item' ∧ region = region' := by
  have same : j = j' := by
    rcases Nat.lt_trichotomy j j' with lt | eq | lt
    · have none := h'.before j item h.le lt h.found
      rw [h.asks] at none
      contradiction
    · exact eq
    · have none := h.before j' item' h'.le lt h'.found
      rw [h'.asks] at none
      contradiction
  subst same
  obtain rfl := Option.some.inj (h.found.symm.trans h'.found)
  exact ⟨rfl, rfl, Option.some.inj (h.asks.symm.trans h'.asks)⟩

theorem findSome?_drop_eq_some_iff :
    (lines.drop i).findSome? region? = some region ↔ ∃ j item, FirstItem lines i j item region := by
  rw [List.findSome?_eq_some_iff]
  constructor
  · rintro ⟨before, item, after, split, asks, none⟩
    have at_ (k : Nat) : lines[i + k]? = (before ++ item :: after)[k]? := by
      rw [← split, List.getElem?_drop]
    refine ⟨i + before.length, item, by omega, ?_, asks, ?_⟩
    · rw [at_, List.getElem?_append_right (Nat.le_refl _), Nat.sub_self]
      rfl
    · intro k line le lt found
      obtain ⟨offset, rfl⟩ := Nat.exists_eq_add_of_le le
      rw [at_, List.getElem?_append_left (by omega)] at found
      exact none line (List.mem_of_getElem? found)
  · rintro ⟨j, item, first⟩
    obtain ⟨offset, rfl⟩ := Nat.exists_eq_add_of_le first.le
    have found : (lines.drop i)[offset]? = some item := by
      rw [List.getElem?_drop]
      exact first.found
    obtain ⟨lt, at_⟩ := List.getElem?_eq_some_iff.mp found
    refine ⟨(lines.drop i).take offset, item, (lines.drop i).drop (offset + 1), ?_, first.asks, ?_⟩
    · rw [← at_, List.getElem_cons_drop, List.take_append_drop]
    · intro line mem
      obtain ⟨k, hk⟩ := List.mem_iff_getElem?.mp mem
      rw [List.getElem?_take] at hk
      split at hk
      · next lt =>
        rw [List.getElem?_drop] at hk
        exact first.before (i + k) line (by omega) (by omega) hk
      · contradiction

theorem findSome?_drop_eq_none_iff :
    (lines.drop i).findSome? region? = none ↔
      ∀ k line, i ≤ k → lines[k]? = some line → line.region? = none := by
  rw [List.findSome?_eq_none_iff]
  constructor
  · intro none k line le found
    obtain ⟨offset, rfl⟩ := Nat.exists_eq_add_of_le le
    rw [← List.getElem?_drop] at found
    exact none line (List.mem_of_getElem? found)
  · intro none line mem
    obtain ⟨k, hk⟩ := List.mem_iff_getElem?.mp mem
    rw [List.getElem?_drop] at hk
    exact none (i + k) line (by omega) hk

/-- No item is added between a line and its first item. -/
theorem FirstItem.next?_eq (first : FirstItem lines i j item region) (other : Region) :
    next? (lines.take i) other = next? (lines.take j) other := by
  obtain ⟨offset, rfl⟩ := Nat.exists_eq_add_of_le first.le
  have between : ∀ line ∈ (lines.drop i).take offset, line.region? = none := by
    intro line mem
    obtain ⟨k, hk⟩ := List.mem_iff_getElem?.mp mem
    rw [List.getElem?_take] at hk
    split at hk
    · rw [List.getElem?_drop] at hk
      exact first.before (i + k) line (by omega) (by omega) hk
    · contradiction
  have same : count (lines.take (i + offset)) other = count (lines.take i) other := by
    rw [List.take_add, count_append, count_eq_zero between, Nat.add_zero]
  unfold next?
  rw [same]

/-- What becomes of a label that waits in front of a line is decided at its first item. -/
theorem FirstItem.fate (first : FirstItem lines i j item region) :
    ((lines.take i).foldl Layout.place {}).fate (lines.drop i) =
      .ofItem region (next? (lines.take j) region) := by
  unfold Layout.fate
  rw [findSome?_drop_eq_some_iff.mpr ⟨j, item, first⟩]
  dsimp only
  rw [Layout.free?_foldl_place, first.next?_eq]

/-- Without an item that follows, a label is left dangling. -/
theorem fate_of_no_item (none : ∀ k line, i ≤ k → lines[k]? = some line → line.region? = none) :
    ((lines.take i).foldl Layout.place {}).fate (lines.drop i) = .dangling := by
  unfold Layout.fate
  rw [findSome?_drop_eq_none_iff.mpr none]

theorem firstItem_of_fate {address : Address}
    (h : ((lines.take i).foldl Layout.place {}).fate (lines.drop i) = .attached region address) :
    ∃ j item, FirstItem lines i j item region ∧ next? (lines.take j) region = some address := by
  cases search : (lines.drop i).findSome? region? with
  | none =>
    rw [fate_of_no_item (findSome?_drop_eq_none_iff.mp search)] at h
    contradiction
  | some found =>
    obtain ⟨j, item, first⟩ := findSome?_drop_eq_some_iff.mp search
    rw [first.fate] at h
    cases free : next? (lines.take j) found with
    | none =>
      rw [free] at h
      contradiction
    | some other =>
      rw [free] at h
      obtain ⟨rfl, rfl⟩ := Fate.attached.inj h
      exact ⟨j, item, first, free⟩

/-! ## Definitions -/

/-- Whether line `i` defines a label that is accepted: it is well-formed and not taken there. -/
structure Accepts (lines : List SourceLine) (i : Nat) (name : String) : Prop where
  defines : ∃ line, lines[i]? = some line ∧ line.label = some name
  valid : Label.isValid name.toList = true
  free : ((lines.take i).foldl Layout.place {}).isTaken name = false

/-- Whether the label that line `i` defines is for an item of a region that gets an address. -/
def Attaches (lines : List SourceLine) (i : Nat) (region : Region) (entry : String × Address) :
    Prop :=
  ∃ line j item, lines[i]? = some line ∧ line.label = some entry.1 ∧
    FirstItem lines i j item region ∧ next? (lines.take j) region = some entry.2

end SourceLine

namespace Layout

open SourceLine (Accepts Attaches)

/-- The label of an accepted definition waits with the number of its line. -/
theorem newLabel?_eq_some_iff {layout : Layout} {line : SourceLine} {label : WaitingLabel} :
    layout.newLabel? line = some label ↔
      line.label = some label.name ∧ label.line = line.number ∧
        Label.isValid label.name.toList = true ∧ layout.isTaken label.name = false := by
  unfold newLabel?
  obtain ⟨name, number⟩ := label
  cases line.label with
  | none => simp
  | some other =>
    rw [Option.bind_some]
    split <;> grind

theorem mem_outcomes_iff {lines : List SourceLine} {outcome : LabelOutcome} :
    outcome ∈ ({} : Layout).outcomes lines ↔
      ∃ i line, lines[i]? = some line ∧ ({} : Layout).outcome? lines line i = some outcome := by
  unfold outcomes
  rw [List.map_nil, List.nil_append, List.mem_filterMap]
  constructor
  · rintro ⟨⟨line, i⟩, mem, made⟩
    exact ⟨i, line, List.mem_zipIdx_iff_getElem?.mp mem, made⟩
  · rintro ⟨i, line, found, made⟩
    exact ⟨(line, i), List.mem_zipIdx_iff_getElem?.mpr found, made⟩

/-- What becomes of an accepted label is its fate where it is defined. -/
theorem outcome?_of_accepts {lines : List SourceLine} {i : Nat} {line : SourceLine} {name : String}
    (accepts : Accepts lines i name) (found : lines[i]? = some line) :
    ({} : Layout).outcome? lines line i =
      some ⟨⟨name, line.number⟩, ((lines.take i).foldl place {}).fate (lines.drop i)⟩ := by
  obtain ⟨⟨line', found', labelled⟩, valid, free⟩ := accepts
  obtain rfl := Option.some.inj (found.symm.trans found')
  have new : ((lines.take i).foldl place {}).newLabel? line = some ⟨name, line.number⟩ :=
    newLabel?_eq_some_iff.mpr ⟨labelled, rfl, valid, free⟩
  unfold outcome?
  dsimp only
  rw [new]
  rfl

theorem outcome?_of_attaches {lines : List SourceLine} {i : Nat} {name : String} {region : Region}
    {address : Address} (accepts : Accepts lines i name)
    (attaches : Attaches lines i region (name, address)) :
    ∃ line, lines[i]? = some line ∧
      ({} : Layout).outcome? lines line i =
        some ⟨⟨name, line.number⟩, .attached region address⟩ := by
  obtain ⟨line, j, item, found, -, first, next⟩ := attaches
  refine ⟨line, found, ?_⟩
  rw [outcome?_of_accepts accepts found, first.fate, next]
  rfl

/-- A label is in the table with the address to which an accepted definition attaches it. -/
theorem get?_ofLines_iff {lines : List SourceLine} {name : String} {address : Address} :
    (ofLines lines).labels.get? name = some address ↔
      ∃ i region, Accepts lines i name ∧ Attaches lines i region (name, address) := by
  rw [LabelTable.get?_eq_some_iff, (perm_entries_ofLines lines).mem_iff, List.mem_filterMap]
  constructor
  · rintro ⟨⟨label, fate⟩, mem, made⟩
    obtain ⟨i, line, found, defined⟩ := mem_outcomes_iff.mp mem
    obtain ⟨_, new, made'⟩ := Option.map_eq_some_iff.mp defined
    obtain ⟨rfl, rfl⟩ := LabelOutcome.mk.inj made'
    obtain ⟨labelled, -, valid, free⟩ := newLabel?_eq_some_iff.mp new
    unfold LabelOutcome.entry? at made
    dsimp only at made
    split at made
    · next region target attached =>
      obtain ⟨rfl, rfl⟩ := Prod.mk.inj (Option.some.inj made)
      obtain ⟨j, item, first, next⟩ := SourceLine.firstItem_of_fate attached
      exact ⟨i, region, ⟨⟨line, found, labelled⟩, valid, free⟩,
        ⟨line, j, item, found, labelled, first, next⟩⟩
    all_goals contradiction
  · rintro ⟨i, region, accepts, attaches⟩
    obtain ⟨line, found, made⟩ := outcome?_of_attaches accepts attaches
    exact ⟨_, mem_outcomes_iff.mpr ⟨i, line, found, made⟩, rfl⟩

end Layout

end TinyMips
