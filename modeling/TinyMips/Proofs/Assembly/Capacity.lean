import TinyMips.Proofs.Assembly.Definition
import TinyMips.Proofs.Assembly.Errors
import TinyMips.Proofs.Assembly.Program

/-!
# What the stores have room for

A run `value:count` is cut down before it is placed, a full store drops what comes, and a line warns
once whatever it loses. All this is said here on the values as they are written, with every run in
full (`SourceLine.writtenValues`):

* **cut** — what a line adds and what it writes agree as far as any store can tell
  (`SourceLine.take_values`);
* **warnings** — the warnings of full stores are those of the lines, one at most for each
  (`Layout.full_ofLines`);
* **program** — the stores hold the first instructions and values, and every line that comes too
  late is warned about (`Program.FilledBy`, `Program.filledBy_of_ofSource`).
-/

namespace TinyMips

/-! ## Lists -/

/-- Pieces that agree up to a bound make texts that agree up to it. -/
theorem take_flatMap_congr {α β : Type} {f g : α → List β} {bound : Nat} {items : List α}
    (same : ∀ item ∈ items, (f item).take bound = (g item).take bound) :
    (items.flatMap f).take bound = (items.flatMap g).take bound := by
  induction items with
  | nil => rfl
  | cons item rest ih =>
    have first := same item List.mem_cons_self
    have later := ih fun other mem => same other (List.mem_cons_of_mem _ mem)
    have room : bound - (f item).length = bound - (g item).length := by
      have lengths := congrArg List.length first
      rw [List.length_take, List.length_take] at lengths
      omega
    have tail : (rest.flatMap f).take (bound - (g item).length) =
        (rest.flatMap g).take (bound - (g item).length) := by
      have cut := congrArg (List.take (bound - (g item).length)) later
      rwa [List.take_take, List.take_take, Nat.min_eq_left (Nat.sub_le _ _)] at cut
    rw [List.flatMap_cons, List.flatMap_cons, List.take_append, List.take_append, first, room, tail]

/-- The items of a kind with enough of the kind before them are those after the first ones. -/
theorem flatMap_zipIdx_further {α β : Type} (kind : α → Bool) (f : α → β) (bound : Nat)
    (items : List α) :
    (items.zipIdx.flatMap fun (item, i) =>
      if kind item = true ∧ bound ≤ ((items.take i).filter kind).length then [f item] else []) =
      ((items.filter kind).drop bound).map f := by
  induction items generalizing bound with
  | nil => simp
  | cons item rest ih =>
    rw [List.zipIdx_cons, List.zipIdx_succ, List.flatMap_cons, List.flatMap_map]
    cases hkind : kind item with
    | false => simpa [hkind] using ih bound
    | true =>
      cases bound with
      | zero => simpa [hkind] using ih 0
      | succ bound => simpa [hkind] using ih bound

/-- A list of at most one for each item is a list of the items that have one. -/
theorem flatMap_ite_singleton {α β : Type} (p : α → Prop) [DecidablePred p] (f : α → β)
    (items : List α) :
    (items.flatMap fun item => if p item then [f item] else []) =
      (items.filter fun item => p item).map f := by
  induction items with
  | nil => rfl
  | cons item rest ih =>
    rw [List.flatMap_cons, ih]
    by_cases h : p item <;> simp [h]

/-! ## Written values -/

/-- The values that the operands of `.word` write, every one of a run. -/
def Request.writtenValues (operands : List Char) : List Word :=
  let text := Text.trim operands
  match Text.cut? (· = ':') text with
  | some (value, count) =>
    match Numeral.literal? (Text.trim value), Numeral.literal? (Text.trim count) with
    | some value, some count => List.replicate count.toInt.toNat value
    | _, _ => []
  | none => (text.splitOn ',').filterMap fun token => Numeral.literal? (Text.trim token)

namespace SourceLine

/-- The values that a line writes, which only a `.word` line does. -/
def writtenValues (line : SourceLine) : List Word :=
  if line.keyword = some ".word" then Request.writtenValues line.operands.toList else []

/-- The values that lines write, in order. -/
def allValues (lines : List SourceLine) : List Word :=
  lines.flatMap writtenValues

/-- The lines with an instruction, in order. -/
def instructionLines (lines : List SourceLine) : List SourceLine :=
  lines.filter fun line => line.region? = some .text

/-- Whether a value of the line at an index comes after the first 256 values of all lines. -/
def Spills (lines : List SourceLine) (i : Nat) (line : SourceLine) : Prop :=
  ∃ k < line.writtenValues.length, 256 ≤ (allValues (lines.take i)).length + k

/-- A line spills if it writes more values than there is room left. -/
theorem spills_iff {lines : List SourceLine} {i : Nat} {line : SourceLine} :
    Spills lines i line ↔
      256 - (allValues (lines.take i)).length < line.writtenValues.length := by
  constructor
  · rintro ⟨k, lt, le⟩
    omega
  · intro lt
    exact ⟨256 - (allValues (lines.take i)).length, lt, by omega⟩

instance (lines : List SourceLine) (i : Nat) (line : SourceLine) :
    Decidable (Spills lines i line) :=
  decidable_of_iff _ spills_iff.symm

end SourceLine

theorem Request.value?_wordValue (token : List Char) :
    (wordValue token).value? = Numeral.literal? token :=
  Checked.value?_ofOption _ _

/-- Cut down to one more than there is room for, a number of repetitions still fills the store. -/
theorem Request.count_of_repeatCount {token : List Char} {count : Nat}
    (h : (repeatCount token).value? = some count) :
    ∃ written, Numeral.literal? token = some written ∧ count = min written.toInt.toNat 257 := by
  unfold repeatCount at h
  split at h
  · next written literal =>
    split at h
    · exact ⟨written, literal, (Option.some.inj h).symm⟩
    · contradiction
  · contradiction

/-- Accepted operands of `.word` add what they write, up to one more than there is room for. -/
theorem Request.take_wordValues {operands : List Char} {values : List Word}
    (h : (wordValues operands).value? = some values) :
    values.take 257 = (writtenValues operands).take 257 := by
  unfold wordValues at h
  unfold writtenValues
  dsimp only at h ⊢
  split at h
  · contradiction
  · cases cut : Text.cut? (fun c => decide (c = ':')) (Text.trim operands) with
    | some parts =>
      obtain ⟨value, count⟩ := parts
      rw [cut] at h
      dsimp only at h ⊢
      simp only [Checked.map_eq_map, Checked.seq_eq_ap, Checked.value?_map, Checked.value?_ap,
        Option.bind_eq_some_iff, Option.map_eq_some_iff, value?_wordValue] at h
      obtain ⟨_, ⟨word, literal, rfl⟩, repeats, accepted, rfl⟩ := h
      obtain ⟨written, counted, rfl⟩ := count_of_repeatCount accepted
      rw [literal, counted, List.take_replicate, List.take_replicate]
      congr 1
      omega
    | none =>
      rw [cut] at h
      dsimp only at h ⊢
      rw [Checked.eq_filterMap_of_all h, List.filterMap_map]
      congr 2
      funext token
      exact value?_wordValue _

namespace SourceLine

variable {line : SourceLine}

theorem region?_eq_data_iff : line.region? = some .data ↔ line.keyword = some ".word" := by
  unfold region?
  cases line.keyword with
  | none => simp
  | some keyword =>
    by_cases word : keyword = ".word"
    · subst word
      decide
    · by_cases dotted : keyword.toList.head? = some '.' <;> simp [word, dotted]

theorem writtenValues_eq_nil (asks : line.region? ≠ some .data) : line.writtenValues = [] :=
  if_neg fun word => asks (region?_eq_data_iff.mpr word)

/-- What an accepted line adds is what it writes, as far as any store can tell. -/
theorem take_values (accepted : (Request.ofLine line).errors = []) :
    line.values.take 257 = line.writtenValues.take 257 := by
  cases asks : line.region? with
  | none => rw [writtenValues_eq_nil (by rw [asks]; nofun), values_of_region? asks]
  | some region =>
    obtain ⟨item, found, suits⟩ := item_of_accepted asks accepted
    obtain ⟨checked, asked⟩ := region?_eq_some_iff.mp asks
    unfold values
    rw [found]
    cases item with
    | instruction opcode operands =>
      obtain ⟨rfl, -⟩ := suits
      rw [writtenValues_eq_nil (by rw [asks]; nofun)]
      rfl
    | words values =>
      obtain ⟨rfl, -⟩ := suits
      unfold writtenValues
      rw [if_pos (region?_eq_data_iff.mp asks)]
      unfold item? at found
      rw [asked] at found
      rcases Request.ofLine_cases asked with ⟨-, rfl⟩ | ⟨text, -⟩
      · dsimp only at found
        rw [Checked.value?_map, Option.map_eq_some_iff] at found
        obtain ⟨values, wrote, same⟩ := found
        obtain rfl := Item.words.inj same
        exact Request.take_wordValues wrote
      · contradiction

/-- An accepted line adds an instruction if it asks for one. -/
theorem isSome_instruction?_iff (accepted : (Request.ofLine line).errors = []) :
    line.instruction?.isSome = true ↔ line.region? = some .text := by
  cases asks : line.region? with
  | none =>
    rw [instruction?_of_region? asks]
    simp
  | some region =>
    obtain ⟨item, found, suits⟩ := item_of_accepted asks accepted
    unfold instruction?
    rw [found]
    cases item with
    | instruction opcode operands =>
      obtain ⟨rfl, -⟩ := suits
      simp [Item.instruction?]
    | words values =>
      obtain ⟨rfl, -⟩ := suits
      simp [Item.instruction?]

section Accepted

variable {lines : List SourceLine} (accepted : ∀ line ∈ lines, (Request.ofLine line).errors = [])

include accepted

/-- Accepted lines add one instruction for each line that asks for one. -/
theorem map_instructionLines :
    (instructionLines lines).map instruction? = (lines.filterMap instruction?).map some := by
  induction lines with
  | nil => rfl
  | cons line rest ih =>
    have own := isSome_instruction?_iff (accepted line List.mem_cons_self)
    have later := ih fun other mem => accepted other (List.mem_cons_of_mem _ mem)
    unfold instructionLines at later ⊢
    cases adds : line.instruction? with
    | none =>
      have skipped : ¬line.region? = some .text := by
        rw [← own, adds]
        exact Bool.false_ne_true
      rw [List.filter_cons_of_neg (by simpa using skipped), List.filterMap_cons_none adds, later]
    | some inst =>
      have asks : line.region? = some .text := own.mp (by rw [adds]; rfl)
      rw [List.filter_cons_of_pos (by simpa using asks), List.filterMap_cons_some adds,
        List.map_cons, List.map_cons, adds, later]

theorem count_text : count lines .text = (instructionLines lines).length := by
  have lengths := congrArg List.length (map_instructionLines accepted)
  rw [List.length_map, List.length_map] at lengths
  exact lengths.symm

theorem take_allValues : (lines.flatMap values).take 257 = (allValues lines).take 257 :=
  take_flatMap_congr fun line mem => take_values (accepted line mem)

end Accepted

end SourceLine

/-! ## Warnings of full stores -/

/-- The store that a message says is full. -/
def Message.fullStore? : Message → Option Region
  | .textFull _ => some .text
  | .dataFull => some .data
  | _ => none

/-- The entries that say that the store of a region is full. -/
def LogEntry.full (region : Region) (entries : List LogEntry) : List LogEntry :=
  entries.filter fun entry => entry.message.fullStore? = some region

namespace Layout

open LogEntry (full)

theorem full_eq_nil {region : Region} {entries : List LogEntry}
    (other : ∀ entry ∈ entries, entry.message.fullStore? ≠ some region) :
    full region entries = [] := by
  unfold full
  rw [List.filter_eq_nil_iff]
  intro entry mem
  simpa using other entry mem

theorem full_dropped (region : Region) (waiting : List WaitingLabel) (address : Option Address) :
    full region (dropped waiting address) = [] := by
  refine full_eq_nil fun entry mem => ?_
  obtain ⟨name, message⟩ := message_of_mem_dropped mem
  rw [message]
  nofun

/-- Of all that a line may warn about, only what does not fit concerns a full store. -/
theorem full_warned (layout : Layout) (line : SourceLine) (region : Region) :
    full region (layout.warned line) = full region (layout.overflow line) := by
  unfold warned
  cases asks : line.region? with
  | none =>
    have nothing : layout.overflow line = [] := by
      unfold overflow
      rw [SourceLine.item?_of_region? asks]
    rw [nothing]
  | some asked =>
    have checks : full region ((Request.ofLine line).warnings.map fun message =>
        { line := some line.number, message }) = [] := by
      refine full_eq_nil fun entry mem => ?_
      obtain ⟨message, warns, rfl⟩ := List.mem_map.mp mem
      obtain ⟨checked, eq⟩ := SourceLine.region?_eq_some_iff.mp asks
      rw [eq] at warns
      obtain ⟨token, rfl⟩ := Request.hardwired_of_mem_warnings eq warns
      nofun
    have split (xs ys : List LogEntry) :
        full region (xs ++ ys) = full region xs ++ full region ys :=
      List.filter_append xs ys
    dsimp only
    rw [split, split, checks, full_dropped, List.nil_append, List.append_nil]

/-- The warnings of full stores are what does not fit of each line, where the lines before it have
been placed. -/
theorem full_ofLines (lines : List SourceLine) (region : Region) :
    full region (ofLines lines).log.warnings.toList = lines.zipIdx.flatMap fun (line, i) =>
      full region (((lines.take i).foldl place {}).overflow line) := by
  have waiting : full region ((lines.foldl place {}).waiting.map fun label =>
      { line := some label.line, message := .labelNotFollowed label.name }) = [] := by
    refine full_eq_nil fun entry mem => ?_
    obtain ⟨label, -, rfl⟩ := List.mem_map.mp mem
    nofun
  unfold full at waiting ⊢
  rw [warnings_ofLines, List.filter_append, waiting, List.append_nil, List.filter_flatMap]
  exact List.flatMap_congr fun (line, i) _ => full_warned _ line region

/-! ## What does not fit -/

/-- A line fills no store but that of its region. -/
theorem full_overflow_of_ne {region : Region} {line : SourceLine}
    (other : line.region? ≠ some region) (layout : Layout) :
    full region (layout.overflow line) = [] := by
  refine full_eq_nil fun entry mem same => other ?_
  rcases layout.message_of_mem_overflow line mem with ⟨asks, full⟩ | ⟨asks, full⟩
  · rw [asks, ← same, full]
    rfl
  · rw [asks, ← same, full]
    rfl

section Accepted

variable {lines : List SourceLine} (accepted : ∀ line ∈ lines, (Request.ofLine line).errors = [])
  {i : Nat} {line : SourceLine} (found : lines[i]? = some line)

include accepted found

/-- An instruction does not fit if 256 lines before it have one. -/
theorem full_text_overflow :
    full .text (((lines.take i).foldl place {}).overflow line) =
      if line.region? = some .text ∧ 256 ≤ (SourceLine.instructionLines (lines.take i)).length then
        [{ line := some line.number, message := .textFull (line.keyword.getD "") }]
      else [] := by
  have earlier : ∀ line ∈ lines.take i, (Request.ofLine line).errors = [] :=
    fun line mem => accepted line (List.mem_of_mem_take mem)
  have size := size_foldl_place (lines.take i)
  rw [SourceLine.count_text earlier] at size
  have isFull : ((lines.take i).foldl place {}).text.isFull = true ↔
      256 ≤ (SourceLine.instructionLines (lines.take i)).length := by
    unfold TextStore.isFull
    rw [decide_eq_true_iff, size]
    show 256 ≤ _ ↔ _
    omega
  by_cases asks : line.region? = some .text
  · obtain ⟨item, own, suits⟩ :=
      SourceLine.item_of_accepted asks (accepted line (List.mem_of_getElem? found))
    cases item with
    | words values => exact absurd suits.1 (by decide)
    | instruction opcode operands =>
      unfold overflow
      rw [own]
      simp only [isFull, asks, true_and]
      split <;> rfl
  · rw [full_overflow_of_ne asks, if_neg fun further => asks further.1]

/-- Some value of a line does not fit if it comes after the first 256 values that are written. -/
theorem full_data_overflow :
    full .data (((lines.take i).foldl place {}).overflow line) =
      if SourceLine.Spills lines i line then
        [{ line := some line.number, message := .dataFull }]
      else [] := by
  have earlier : ∀ line ∈ lines.take i, (Request.ofLine line).errors = [] :=
    fun line mem => accepted line (List.mem_of_mem_take mem)
  by_cases asks : line.region? = some .data
  · have ownAccepted := accepted line (List.mem_of_getElem? found)
    obtain ⟨item, own, suits⟩ := SourceLine.item_of_accepted asks ownAccepted
    cases item with
    | instruction opcode operands => exact absurd suits.1 (by decide)
    | words values =>
      -- cutting runs down changes no length up to the capacity
      have before := congrArg List.length (SourceLine.take_allValues earlier)
      have added := congrArg List.length (SourceLine.take_values ownAccepted)
      have placed : ((lines.take i).foldl place {}).data.placed =
          min 256 ((lines.take i).flatMap SourceLine.values).length :=
        placed_foldl_place (lines.take i)
      have same : line.values = values := by
        unfold SourceLine.values
        rw [own]
        rfl
      rw [List.length_take, List.length_take] at before added
      rw [same] at added
      have room : Region.data.capacity - ((lines.take i).foldl place {}).data.placed <
          values.length ↔ SourceLine.Spills lines i line := by
        rw [SourceLine.spills_iff, placed]
        show 256 - _ < _ ↔ _
        omega
      unfold overflow
      rw [own]
      simp only [room]
      split <;> rfl
  · rw [full_overflow_of_ne asks, if_neg]
    rintro ⟨k, lt, -⟩
    rw [SourceLine.writtenValues_eq_nil asks] at lt
    exact absurd lt (Nat.not_lt_zero k)

end Accepted

end Layout

/-! ## Programs -/

/-- What the stores of a program hold of the lines that it is made of, and what is warned about. -/
structure Program.FilledBy (program : Program) (lines : List SourceLine) : Prop where
  size : program.text.size = min 256 (SourceLine.instructionLines lines).length
  /-- An instruction has the index of its line among the lines with an instruction. -/
  instruction (i : Nat) (line : SourceLine) (lt : i < 256)
    (found : (SourceLine.instructionLines lines)[i]? = some line) :
    ∃ written, line.instruction? = some written ∧
      program.text.get? i = some (written.assembleAt i program.labels)
  placed : program.data.placed = min 256 (SourceLine.allValues lines).length
  /-- A slot holds the written value of its index if there is one, and else nothing. -/
  slot (i : Nat) : program.data.slots[i]?.join = ((SourceLine.allValues lines).take 256)[i]?
  textFull : LogEntry.full .text program.log.warnings.toList =
    ((SourceLine.instructionLines lines).drop 256).map fun line =>
      { line := some line.number, message := .textFull (line.keyword.getD "") }
  dataFull : LogEntry.full .data program.log.warnings.toList =
    (lines.zipIdx.filter fun (line, i) => SourceLine.Spills lines i line).map fun (line, _) =>
      { line := some line.number, message := .dataFull }

namespace Program

variable {lines : List SourceLine} {program : Program}

theorem accepted_of_ofLines (h : ofLines lines = .ok program) (line : SourceLine)
    (mem : line ∈ lines) : (Request.ofLine line).errors = [] := by
  obtain ⟨i, found⟩ := List.mem_iff_getElem?.mp mem
  exact (Layout.accepted_of_no_errors (ofLines_eq_ok h).1 found).1

theorem filledBy_of_ofLines (h : ofLines lines = .ok program) : program.FilledBy lines := by
  have accepted := accepted_of_ofLines h
  obtain ⟨-, -, made⟩ := ofLines_eq_ok h
  have log : program.log = (Layout.ofLines lines).log := by rw [made]
  have data : program.data = (lines.flatMap SourceLine.values).foldl DataStore.push {} := by
    rw [made]
    exact Layout.data_ofLines lines
  have cut : (lines.flatMap SourceLine.values).take 256 =
      (SourceLine.allValues lines).take 256 := by
    have longer := congrArg (List.take 256) (SourceLine.take_allValues accepted)
    rwa [List.take_take, List.take_take] at longer
  constructor
  case size =>
    have count : program.text.size = min 256 (SourceLine.count lines .text) := by
      rw [made, TextStore.link, TextStore.size_map, TextStore.size_map]
      exact Layout.size_foldl_place lines
    rw [count, SourceLine.count_text accepted]
  case instruction =>
    intro i line lt found
    have adds : ((SourceLine.instructionLines lines).map SourceLine.instruction?)[i]? =
        ((lines.filterMap SourceLine.instruction?).map some)[i]? := by
      rw [SourceLine.map_instructionLines accepted]
    rw [List.getElem?_map, List.getElem?_map, found, Option.map_some] at adds
    obtain ⟨written, stored, own⟩ := Option.map_eq_some_iff.mp adds.symm
    refine ⟨written, own.symm, ?_⟩
    rw [get?_text h]
    unfold SourceLine.placed
    rw [List.getElem?_take_of_lt lt, stored]
    rfl
  case placed =>
    have empty : ({} : DataStore).placed ≤ 256 := by decide
    have lengths := congrArg List.length cut
    rw [List.length_take, List.length_take] at lengths
    rw [data, DataStore.placed_foldl_push empty, ← lengths]
    exact congrArg (min 256) (Nat.zero_add _)
  case slot =>
    intro i
    rw [data, DataStore.slot_foldl_push_empty, cut]
  case textFull =>
    unfold SourceLine.instructionLines
    rw [log, Layout.full_ofLines, ← flatMap_zipIdx_further]
    refine List.flatMap_congr fun entry mem => ?_
    obtain ⟨line, i⟩ := entry
    have own := Layout.full_text_overflow accepted (List.mem_zipIdx_iff_getElem?.mp mem)
    refine own.trans (if_congr ?_ rfl rfl)
    simp only [decide_eq_true_eq, SourceLine.instructionLines]
  case dataFull =>
    rw [log, Layout.full_ofLines, ← flatMap_ite_singleton]
    refine List.flatMap_congr fun entry mem => ?_
    obtain ⟨line, i⟩ := entry
    exact Layout.full_data_overflow accepted (List.mem_zipIdx_iff_getElem?.mp mem)

/-- Whatever source the assembler accepts, its stores hold what is written as far as there is
room, and every line that comes too late is warned about once. -/
theorem filledBy_of_ofSource {source : String} (h : ofSource source = .ok program) :
    program.FilledBy (SourceLine.ofSource source) :=
  filledBy_of_ofLines h

/-- A run of the largest number of repetitions spills, and so does every value after it. -/
theorem filledBy_of_ofSource_of_longest_run :
    let source := ".word 5\n.word 7:9223372036854775807\nhalt\n.word 1, 2"
    ∃ program, ofSource source = .ok program ∧ program.log.warnings.size = 2 ∧
      program.FilledBy (SourceLine.ofSource source) := by
  intro source
  have warned : (ofSource source).toOption.map (fun program => program.log.warnings.size) =
      some 2 := by
    decide +kernel
  cases h : ofSource source with
  | error reasons =>
    rw [h] at warned
    contradiction
  | ok program =>
    rw [h] at warned
    exact ⟨program, rfl, Option.some.inj warned, filledBy_of_ofSource h⟩

end Program

end TinyMips
