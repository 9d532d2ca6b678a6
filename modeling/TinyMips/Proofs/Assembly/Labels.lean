import TinyMips.Proofs.Assembly.Definition
import TinyMips.Proofs.Assembly.Errors
import TinyMips.Proofs.Assembly.Program

/-!
# The labels of a program

No label of an accepted source is lost. A definition is attached to the instruction or the first
value of the first line from there on that asks for an item; where the store has no room for that
item, or where there is no such line, exactly one warning tells it. Nothing else enters the table
(`Program.LabelAccount`, `Program.labelAccount_of_ofSource`).
-/

namespace TinyMips

namespace LabelOutcome

/-! ## Lists of outcomes -/

/-- A label is attached or warned about. -/
theorem length_eq_add (outcomes : List LabelOutcome) :
    outcomes.length =
      (outcomes.filterMap entry?).length + (outcomes.filterMap warning?).length := by
  induction outcomes with
  | nil => rfl
  | cons outcome rest ih =>
    obtain ⟨label, fate⟩ := outcome
    cases fate with
    | attached region address =>
      simp only [List.filterMap_cons, entry?, warning?, List.length_cons, ih]
      omega
    | dropped | dangling =>
      simp only [List.filterMap_cons, entry?, warning?, List.length_cons, ih]
      omega

theorem line_of_warning? {outcome : LabelOutcome} {entry : LogEntry}
    (warned : outcome.warning? = some entry) : entry.line = some outcome.label.line := by
  obtain ⟨label, fate⟩ := outcome
  cases fate with
  | attached region address => contradiction
  | dropped | dangling =>
    obtain rfl := Option.some.inj warned
    rfl

theorem filter_warnings_of_ne {outcomes : List LabelOutcome} {number : Nat}
    (h : ∀ outcome ∈ outcomes, outcome.label.line ≠ number) :
    (outcomes.filterMap warning?).filter (fun entry => entry.line = some number) = [] := by
  rw [List.filter_eq_nil_iff]
  intro entry mem
  obtain ⟨outcome, within, warned⟩ := List.mem_filterMap.mp mem
  rw [line_of_warning? warned]
  simpa using h outcome within

/-- Where no two definitions are on one line, the warnings of a line are those about its label. -/
theorem filter_warnings_of_mem {outcomes : List LabelOutcome}
    (distinct : outcomes.Pairwise fun a b => a.label.line ≠ b.label.line) {outcome : LabelOutcome}
    (mem : outcome ∈ outcomes) :
    (outcomes.filterMap warning?).filter (fun entry => entry.line = some outcome.label.line) =
      outcome.warning?.toList := by
  induction outcomes with
  | nil => contradiction
  | cons first rest ih =>
    obtain ⟨others, later⟩ := List.pairwise_cons.mp distinct
    have split : (first :: rest).filterMap warning? =
        first.warning?.toList ++ rest.filterMap warning? := by
      rw [List.filterMap_cons]
      cases first.warning? <;> rfl
    rw [split, List.filter_append]
    rcases List.mem_cons.mp mem with rfl | within
    · rw [filter_warnings_of_ne (fun other within => (others other within).symm), List.append_nil]
      cases warned : outcome.warning? with
      | none => rfl
      | some entry => simp [line_of_warning? warned]
    · have ne := others outcome within
      have none : first.warning?.toList.filter
          (fun entry => entry.line = some outcome.label.line) = [] := by
        cases warned : first.warning? with
        | none => rfl
        | some entry => simp [line_of_warning? warned, ne]
      rw [none, List.nil_append, ih later within]

end LabelOutcome

namespace Layout

open SourceLine (Accepts Attaches)

variable {lines : List SourceLine} {name : String}

/-! ## The outcomes of all lines -/

theorem line_of_outcome? {layout : Layout} {line : SourceLine} {i : Nat} {outcome : LabelOutcome}
    (made : layout.outcome? lines line i = some outcome) : outcome.label.line = line.number := by
  obtain ⟨label, new, rfl⟩ := Option.map_eq_some_iff.mp made
  exact (newLabel?_eq_some_iff.mp new).2.1

theorem outcomes_empty :
    ({} : Layout).outcomes lines =
      lines.zipIdx.filterMap fun (line, i) => ({} : Layout).outcome? lines line i :=
  List.nil_append _

/-- Definitions of different lines have outcomes of different lines. -/
theorem pairwise_outcomes (ordered : lines.Pairwise fun a b => a.number < b.number) :
    (({} : Layout).outcomes lines).Pairwise fun a b => a.label.line ≠ b.label.line := by
  rw [← List.zipIdx_map_fst 0 lines, List.pairwise_map] at ordered
  rw [outcomes_empty]
  refine ordered.filterMap _ ?_
  intro a b lt first hfirst second hsecond
  rw [line_of_outcome? hfirst, line_of_outcome? hsecond]
  exact Nat.ne_of_lt lt

/-- Where no definition is refused, every line with a label has an outcome. -/
theorem length_outcomes
    (accepts : ∀ i line name, lines[i]? = some line → line.label = some name →
      Accepts lines i name) :
    (({} : Layout).outcomes lines).length = lines.countP fun line => line.label.isSome := by
  have labelled : lines.countP (fun line => line.label.isSome) =
      lines.zipIdx.countP fun entry => entry.1.label.isSome := by
    conv => lhs; rw [← List.zipIdx_map_fst 0 lines, List.countP_map]
    rfl
  rw [outcomes_empty, List.length_filterMap_eq_countP, labelled]
  refine List.countP_congr ?_
  rintro ⟨line, i⟩ mem
  have found := List.mem_zipIdx_iff_getElem?.mp mem
  cases label : line.label with
  | none => simp [outcome?, newLabel?, label]
  | some name => simp [outcome?_of_accepts (accepts i line name found label) found]

/-- Definitions of different lines that are attached define different labels. -/
theorem ne_of_attached {i k : Nat} (lt : i < k) {line line' : SourceLine}
    (found : lines[i]? = some line) (found' : lines[k]? = some line')
    {label label' : WaitingLabel} {region other : Region} {address target : Address}
    (made : ({} : Layout).outcome? lines line i = some ⟨label, .attached region address⟩)
    (made' : ({} : Layout).outcome? lines line' k = some ⟨label', .attached other target⟩) :
    label.name ≠ label'.name := by
  have distinct := ((perm_entries_ofLines lines).map Prod.fst).nodup_iff.mp
    (LabelTable.nodup_names _)
  rw [outcomes_empty, List.filterMap_filterMap, List.Nodup, List.pairwise_map,
    List.pairwise_filterMap, List.pairwise_iff_getElem] at distinct
  obtain ⟨hi, rfl⟩ := List.getElem?_eq_some_iff.mp found
  obtain ⟨hk, rfl⟩ := List.getElem?_eq_some_iff.mp found'
  have ne := distinct i k (by simpa using hi) (by simpa using hk) lt
  simp only [List.getElem_zipIdx, Nat.zero_add, made, made', Option.bind_some] at ne
  exact ne _ rfl _ rfl

/-- No two definitions of one label are attached. -/
theorem eq_of_attaches {i k : Nat} {region other : Region} {address target : Address}
    (accepts : Accepts lines i name) (attaches : Attaches lines i region (name, address))
    (accepts' : Accepts lines k name) (attaches' : Attaches lines k other (name, target)) :
    i = k := by
  obtain ⟨line, found, made⟩ := outcome?_of_attaches accepts attaches
  obtain ⟨line', found', made'⟩ := outcome?_of_attaches accepts' attaches'
  rcases Nat.lt_trichotomy i k with lt | eq | lt
  · exact (ne_of_attached lt found found' made made' rfl).elim
  · exact eq
  · exact (ne_of_attached lt found' found made' made rfl).elim

end Layout

/-- The warnings about labels that belong to a line. -/
def Log.labelWarningsAt (log : Log) (number : Nat) : List LogEntry :=
  log.labelWarnings.filter fun entry => entry.line = some number

namespace Program

open SourceLine (Accepts Attaches FirstItem count next?)

/-- Where the item of line `j` stands in a program: its instruction in the text, or the first of
its values in the data. -/
inductive ItemAt (program : Program) (lines : List SourceLine) (j : Nat) (item : SourceLine) :
    Region → Address → Prop where
  | instruction (inst : Instruction)
    (found : program.text.get? (count (lines.take j) .text) = some inst)
    (origin : inst.line = some item.number) : ItemAt program lines j item .text inst.address
  | value (value : Word)
    (found : program.data.slots[count (lines.take j) .data]? = some (some value))
    (first : item.values.head? = some value) :
    ItemAt program lines j item .data (Region.data.addressOf (count (lines.take j) .data))

/-- What becomes of the labels that the lines of a program define. -/
structure LabelAccount (program : Program) (lines : List SourceLine) : Prop where
  attached {i j : Nat} {line item : SourceLine} {name : String} {region : Region}
    (found : lines[i]? = some line) (labelled : line.label = some name)
    (first : FirstItem lines i j item region) (room : count (lines.take j) region < 256) :
    ∃ address, program.labels.get? name = some address ∧
      program.ItemAt lines j item region address ∧
      Attaches lines i region (name, address) ∧
      program.log.labelWarningsAt line.number = []
  dropped {i j : Nat} {line item : SourceLine} {name : String} {region : Region}
    (found : lines[i]? = some line) (labelled : line.label = some name)
    (first : FirstItem lines i j item region) (full : 256 ≤ count (lines.take j) region) :
    program.log.labelWarningsAt line.number =
        [{ line := some line.number, message := .labelDropped name }] ∧
      ∀ address, program.labels.get? name = some address →
        ∃ k ≠ i, ∃ other, Attaches lines k other (name, address)
  dangling {i : Nat} {line : SourceLine} {name : String}
    (found : lines[i]? = some line) (labelled : line.label = some name)
    (last : ∀ j item region, ¬FirstItem lines i j item region) :
    program.log.labelWarningsAt line.number =
        [{ line := some line.number, message := .labelNotFollowed name }] ∧
      ∀ address, program.labels.get? name = some address →
        ∃ k ≠ i, ∃ other, Attaches lines k other (name, address)
  entries (entry : String × Address) (defined : entry ∈ program.labels.entries) :
    ∃! i, ∃ region, Attaches lines i region entry
  size :
    lines.countP (fun line => line.label.isSome) =
      program.labels.size + program.log.labelWarnings.length

variable {lines : List SourceLine} {program : Program}

/-! ## Where items stand -/

theorem itemAt_text (h : ofLines lines = .ok program) {j : Nat} {item : SourceLine}
    (found : lines[j]? = some item) (asks : item.region? = some .text)
    (room : count (lines.take j) .text < 256) :
    program.ItemAt lines j item .text (Region.text.addressOf (count (lines.take j) .text)) := by
  obtain ⟨silent, -, -⟩ := ofLines_eq_ok h
  obtain ⟨wanted, asked, suits⟩ :=
    SourceLine.item_of_accepted asks (Layout.accepted_of_no_errors silent found).1
  cases wanted with
  | words values => exact absurd suits.1 (by decide)
  | instruction opcode operands =>
    have adds : item.instruction? =
        some { opcode, operands, line := some item.number } := by
      unfold SourceLine.instruction?
      rw [asked]
      rfl
    have stored := get?_text h (count (lines.take j) .text)
    rw [SourceLine.placed, List.getElem?_take_of_lt room,
      SourceLine.getElem?_instructions found adds, Option.map_some] at stored
    have here : program.ItemAt lines j item .text _ :=
      .instruction _ stored (Instruction.line_assembleAt _ _ _)
    rw [Instruction.address_assembleAt] at here
    exact here

theorem itemAt_data (h : ofLines lines = .ok program) {j : Nat} {item : SourceLine}
    (found : lines[j]? = some item) (asks : item.region? = some .data)
    (room : count (lines.take j) .data < 256) :
    program.ItemAt lines j item .data (Region.data.addressOf (count (lines.take j) .data)) := by
  obtain ⟨silent, -, made⟩ := ofLines_eq_ok h
  obtain ⟨wanted, asked, suits⟩ :=
    SourceLine.item_of_accepted asks (Layout.accepted_of_no_errors silent found).1
  cases wanted with
  | instruction opcode operands => exact absurd suits.1 (by decide)
  | words values =>
    have adds : item.values = values := by
      unfold SourceLine.values
      rw [asked]
      rfl
    have nonempty : item.values ≠ [] := by
      rw [adds]
      exact suits.2
    have place := SourceLine.getElem?_values found nonempty
    obtain ⟨value, rest, first⟩ := List.exists_cons_of_ne_nil nonempty
    rw [first, List.head?_cons] at place
    obtain ⟨within, -⟩ := List.getElem?_eq_some_iff.mp place
    have empty : ({} : DataStore).placed ≤ 256 := by decide
    have slot := DataStore.slot_foldl_push empty (lines.flatMap SourceLine.values)
      (count (lines.take j) .data)
    rw [← Layout.data_ofLines, if_pos ⟨Nat.zero_le _, room, by simpa using within⟩,
      show ({} : DataStore).placed = 0 from rfl, Nat.sub_zero, place,
      Option.join_eq_some_iff] at slot
    refine .value value ?_ (by rw [first, List.head?_cons])
    rw [made]
    exact slot

/-- The item of an accepted line stands where the items of the lines before it end. -/
theorem itemAt (h : ofLines lines = .ok program) {i j : Nat} {item : SourceLine} {region : Region}
    (first : FirstItem lines i j item region) (room : count (lines.take j) region < 256) :
    program.ItemAt lines j item region (region.addressOf (count (lines.take j) region)) := by
  cases region with
  | text => exact itemAt_text h first.found first.asks room
  | data => exact itemAt_data h first.found first.asks room

/-! ## The outcome of a definition -/

/-- No definition of a program is refused. -/
theorem accepts_of_label (h : ofLines lines = .ok program) {i : Nat} {line : SourceLine}
    {name : String} (found : lines[i]? = some line) (labelled : line.label = some name) :
    Accepts lines i name := by
  obtain ⟨silent, -, -⟩ := ofLines_eq_ok h
  obtain ⟨valid, free⟩ := (Layout.accepted_of_no_errors silent found).2 name labelled
  exact ⟨⟨line, found, labelled⟩, valid, free⟩

theorem log_of_ofLines (h : ofLines lines = .ok program) :
    program.log = (Layout.ofLines lines).log := by
  obtain ⟨-, -, rfl⟩ := ofLines_eq_ok h
  rfl

theorem labels_of_ofLines (h : ofLines lines = .ok program) :
    program.labels = (Layout.ofLines lines).labels := by
  obtain ⟨-, -, rfl⟩ := ofLines_eq_ok h
  rfl

/-- The warnings about the label of a line are those of its fate. -/
theorem labelWarningsAt_eq (ordered : lines.Pairwise fun a b => a.number < b.number)
    (h : ofLines lines = .ok program) {i : Nat} {line : SourceLine} {name : String}
    (found : lines[i]? = some line) (labelled : line.label = some name) {fate : Fate}
    (decided : ((lines.take i).foldl Layout.place {}).fate (lines.drop i) = fate) :
    program.log.labelWarningsAt line.number =
      (LabelOutcome.warning? ⟨⟨name, line.number⟩, fate⟩).toList := by
  have made := Layout.outcome?_of_accepts (accepts_of_label h found labelled) found
  rw [decided] at made
  have mem := Layout.mem_outcomes_iff.mpr ⟨i, line, found, made⟩
  unfold Log.labelWarningsAt
  rw [log_of_ofLines h, Layout.labelWarnings_ofLines]
  exact LabelOutcome.filter_warnings_of_mem (Layout.pairwise_outcomes ordered) mem

theorem exists_other_of_get? (h : ofLines lines = .ok program) {i : Nat} {name : String}
    (unattached : ∀ region address, ¬Attaches lines i region (name, address)) (address : Address)
    (defined : program.labels.get? name = some address) :
    ∃ k ≠ i, ∃ other, Attaches lines k other (name, address) := by
  rw [labels_of_ofLines h] at defined
  obtain ⟨k, other, -, attaches⟩ := Layout.get?_ofLines_iff.mp defined
  refine ⟨k, ?_, other, attaches⟩
  rintro rfl
  exact unattached other address attaches

/-- The label of every line of a program is accounted for, and the table holds nothing else. -/
theorem labelAccount_of_ofLines (ordered : lines.Pairwise fun a b => a.number < b.number)
    (h : ofLines lines = .ok program) : program.LabelAccount lines where
  attached {i j line item name region} found labelled first room := by
    have next : next? (lines.take j) region =
        some (region.addressOf (count (lines.take j) region)) := if_pos room
    have attaches : Attaches lines i region (name, _) :=
      ⟨line, j, item, found, labelled, first, next⟩
    refine ⟨_, ?_, itemAt h first room, attaches, ?_⟩
    · rw [labels_of_ofLines h]
      exact Layout.get?_ofLines_iff.mpr ⟨i, region, accepts_of_label h found labelled, attaches⟩
    · rw [labelWarningsAt_eq ordered h found labelled first.fate, next]
      rfl
  dropped {i j line item name region} found labelled first full := by
    have next : next? (lines.take j) region = none := if_neg (Nat.not_lt.mpr full)
    refine ⟨?_, exists_other_of_get? h ?_⟩
    · rw [labelWarningsAt_eq ordered h found labelled first.fate, next]
      rfl
    · rintro other address ⟨-, j', item', -, -, first', next'⟩
      obtain ⟨rfl, rfl, rfl⟩ := first.unique first'
      rw [next] at next'
      contradiction
  dangling {i line name} found labelled last := by
    refine ⟨?_, exists_other_of_get? h ?_⟩
    · have none : ∀ k line, i ≤ k → lines[k]? = some line → line.region? = none := by
        rw [← SourceLine.findSome?_drop_eq_none_iff, Option.eq_none_iff_forall_ne_some]
        intro region search
        obtain ⟨j, item, first⟩ := SourceLine.findSome?_drop_eq_some_iff.mp search
        exact last j item region first
      rw [labelWarningsAt_eq ordered h found labelled (SourceLine.fate_of_no_item none)]
      rfl
    · rintro other address ⟨-, j, item, -, -, first, -⟩
      exact last j item other first
  entries entry defined := by
    rw [labels_of_ofLines h, ← LabelTable.get?_eq_some_iff] at defined
    obtain ⟨i, region, accepts, attaches⟩ := Layout.get?_ofLines_iff.mp defined
    refine ⟨i, ⟨region, attaches⟩, ?_⟩
    rintro k ⟨other, ⟨line, j, item, found, labelled, first, next⟩⟩
    have accepts' := accepts_of_label h found labelled
    exact Layout.eq_of_attaches accepts' ⟨line, j, item, found, labelled, first, next⟩
      accepts attaches
  size := by
    have entries := (Layout.perm_entries_ofLines lines).length_eq
    rw [log_of_ofLines h, labels_of_ofLines h, Layout.labelWarnings_ofLines]
    unfold LabelTable.size
    rw [entries, ← LabelOutcome.length_eq_add]
    exact (Layout.length_outcomes fun i line name found labelled =>
      accepts_of_label h found labelled).symm

/-- No label of an accepted source is lost. -/
theorem labelAccount_of_ofSource {source : String} (h : ofSource source = .ok program) :
    program.LabelAccount (SourceLine.ofSource source) :=
  labelAccount_of_ofLines (SourceLine.pairwise_ofSource source) h

/-- A label that is dropped at a full data store can be defined again, and one is left dangling. -/
theorem labelAccount_of_ofSource_of_full :
    let source := ".word 7:256\nx: .word 1\nx: halt\ny:"
    ∃ program, ofSource source = .ok program ∧
      program.labels.entries = [("x", ⟨0x00400000⟩)] ∧
      program.log.labelWarnings =
        [{ line := some 2, message := .labelDropped "x" },
          { line := some 4, message := .labelNotFollowed "y" }] ∧
      program.LabelAccount (SourceLine.ofSource source) := by
  intro source
  have labels : (ofSource source).toOption.map
      (fun program => (program.labels.entries, program.log.labelWarnings)) =
        some ([("x", ⟨0x00400000⟩)],
          [{ line := some 2, message := .labelDropped "x" },
            { line := some 4, message := .labelNotFollowed "y" }]) := by
    decide +kernel
  cases h : ofSource source with
  | error reasons =>
    rw [h] at labels
    contradiction
  | ok program =>
    rw [h] at labels
    obtain ⟨entries, warnings⟩ := Prod.mk.inj (Option.some.inj labels)
    exact ⟨program, rfl, entries, warnings, labelAccount_of_ofSource h⟩

end Program

end TinyMips
