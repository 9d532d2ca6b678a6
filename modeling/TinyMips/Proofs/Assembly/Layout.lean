import TinyMips.Assembly.Layout
import TinyMips.Proofs.Assembly.Item
import TinyMips.Proofs.Store.Data
import TinyMips.Proofs.Store.Labels
import TinyMips.Proofs.Store.Text

/-!
# What a layout holds

Placing is followed line by line:

* **stores** — the stores hold what the lines add, in order and as far as there is room
  (`Layout.text_ofLines`, `Layout.data_ofLines`);
* **labels** — the names of labels are well-formed, and as long as there is no error each label
  stands for a placed item (`Layout.Sound`, `Layout.sound_ofLines`).
-/

namespace TinyMips

/-! ## Logs -/

namespace Log

theorem errors_foldl_warn {α : Type} (items : List α) (line : α → Option Nat)
    (message : α → Message) (log : Log) :
    (items.foldl (fun log item => log.warn (line item) (message item)) log).errors =
      log.errors := by
  induction items generalizing log with
  | nil => rfl
  | cons item rest ih => exact ih _

theorem errors_foldl_error (messages : List Message) (line : Option Nat) (log : Log) :
    (messages.foldl (fun log message => log.error line message) log).errors =
      log.errors ++ (messages.map fun message => ({ line, message } : LogEntry)).toArray := by
  induction messages generalizing log with
  | nil => simp
  | cons message rest ih =>
    rw [List.foldl_cons, ih]
    simp [error]

end Log

namespace LabelTable

/-- Labels that get an address together are defined with it, the others were there before. -/
theorem mem_foldl_define {address : Address} {labels : List WaitingLabel} {table : LabelTable}
    {entry : String × Address}
    (h : entry ∈ (labels.foldl (fun table label => table.define label.name address)
      table).entries) :
    (∃ label ∈ labels, entry = (label.name, address)) ∨ entry ∈ table.entries := by
  induction labels generalizing table with
  | nil => exact .inr h
  | cons label rest ih =>
    rcases ih h with ⟨other, mem, eq⟩ | before
    · exact .inl ⟨other, List.mem_cons_of_mem _ mem, eq⟩
    · rcases mem_insertEntry before with eq | before
      · exact .inl ⟨label, List.mem_cons_self, eq⟩
      · exact .inr before

end LabelTable

namespace Layout

/-! ## The parts of one line -/

section Parts

variable (layout : Layout) (name keyword : String) (line : Nat) (address : Option Address)

theorem text_stageLabel : (layout.stageLabel name line).text = layout.text := by
  unfold stageLabel
  split
  · rfl
  · split <;> rfl

theorem data_stageLabel : (layout.stageLabel name line).data = layout.data := by
  unfold stageLabel
  split
  · rfl
  · split <;> rfl

theorem text_settle : (layout.settle address).text = layout.text := by
  cases address <;> rfl

theorem data_settle : (layout.settle address).data = layout.data := by
  cases address <;> rfl

theorem errors_settle : (layout.settle address).log.errors = layout.log.errors := by
  cases address with
  | none => exact Log.errors_foldl_warn _ _ _ _
  | some address => rfl

theorem errors_report {α : Type} (checked : Checked α) :
    (layout.report line checked).log.errors =
      layout.log.errors ++
        (checked.errors.map fun message => ({ line, message } : LogEntry)).toArray := by
  unfold report
  dsimp only
  rw [Log.errors_foldl_warn, Log.errors_foldl_error]

/-- Placing an item changes the stores, as far as there is room, and at most warns. -/
theorem put_eq (item : Item) :
    ∃ log : Log, log.errors = layout.log.errors ∧
      layout.put keyword line item =
        { layout with
          text := layout.text.extend (item.instruction? line)
          data := item.values.foldl DataStore.push layout.data
          log } := by
  cases item with
  | instruction opcode operands =>
    show ∃ log : Log, _ ∧ ite _ _ _ = _
    split
    · next full =>
      refine ⟨layout.log.warn line (.textFull keyword), rfl, ?_⟩
      show _ = { layout with text := layout.text.push _, log := _ }
      rw [TextStore.push_of_full full]
    · exact ⟨layout.log, rfl, rfl⟩
  | words values =>
    show ∃ log : Log, _ ∧ ite _ _ _ = _
    split
    · exact ⟨layout.log.warn line .dataFull, rfl, rfl⟩
    · exact ⟨layout.log, rfl, rfl⟩

end Parts

/-! ## One line -/

/-- The log entries of the reasons for which a line was refused. -/
def refusals (line : Nat) (errors : List Message) : Array LogEntry :=
  (errors.map fun message => { line, message }).toArray

section Place

variable (layout : Layout) {line : SourceLine}

/-- A line that asks for nothing leaves its reasons in the log. -/
theorem fulfil_of_nothing {errors : List Message} (asked : Request.ofLine line = .nothing errors)
    (keyword : String) :
    ∃ log : Log, log.errors = layout.log.errors ++ refusals line.number errors ∧
      layout.fulfil keyword line.number (.ofLine line) = { layout with log } := by
  rw [asked]
  exact ⟨_, Log.errors_foldl_error _ _ _, rfl⟩

/-- A line that asks for an item adds to the stores, and the labels that waited for it get the
address that was free before. -/
theorem fulfil_of_item {region : Region} {checked : Checked Item}
    (asked : Request.ofLine line = .item region checked) (keyword : String) :
    ∃ log : Log, log.errors = layout.log.errors ++ refusals line.number checked.errors ∧
      layout.fulfil keyword line.number (.ofLine line) =
        settle { layout with
          text := layout.text.extend line.instruction?
          data := line.values.foldl DataStore.push layout.data
          log } (layout.free? region) := by
  have reported := layout.errors_report line.number checked
  have found : line.item? = checked.value? := by
    unfold SourceLine.item?
    rw [asked]
  have free : (layout.report line.number checked).free? region = layout.free? region := by
    cases region <;> rfl
  rw [asked]
  unfold SourceLine.instruction? SourceLine.values fulfil
  dsimp only
  rw [found, free]
  cases checked.value? with
  | none => exact ⟨_, reported, rfl⟩
  | some item =>
    obtain ⟨log, kept, put⟩ :=
      (layout.report line.number checked).put_eq keyword line.number item
    refine ⟨log, kept.trans reported, ?_⟩
    dsimp only
    rw [put]
    rfl

/-- What a line asks for goes to the stores. -/
theorem stores_fulfil (line : SourceLine) (keyword : String) :
    (layout.fulfil keyword line.number (.ofLine line)).text =
        layout.text.extend line.instruction? ∧
      (layout.fulfil keyword line.number (.ofLine line)).data =
        line.values.foldl DataStore.push layout.data := by
  cases asked : Request.ofLine line with
  | nothing errors =>
    have unasked := SourceLine.region?_eq_none_iff.mpr ⟨errors, asked⟩
    rw [← asked]
    obtain ⟨log, -, eq⟩ := layout.fulfil_of_nothing asked keyword
    rw [eq, SourceLine.instruction?_of_region? unasked, SourceLine.values_of_region? unasked]
    exact ⟨rfl, rfl⟩
  | item region checked =>
    rw [← asked]
    obtain ⟨log, -, eq⟩ := layout.fulfil_of_item asked keyword
    rw [eq, text_settle, data_settle]
    exact ⟨rfl, rfl⟩

/-- The layout in which the label of a line waits. -/
def stage (line : SourceLine) : Layout :=
  match line.label with
  | some name => layout.stageLabel name line.number
  | none => layout

theorem place_eq (line : SourceLine) :
    layout.place line =
      (layout.stage line).fulfil (line.keyword.getD "") line.number (.ofLine line) := rfl

theorem stores_stage (line : SourceLine) :
    (layout.stage line).text = layout.text ∧ (layout.stage line).data = layout.data := by
  unfold stage
  cases line.label with
  | none => exact ⟨rfl, rfl⟩
  | some name => exact ⟨layout.text_stageLabel name _, layout.data_stageLabel name _⟩

theorem text_place (line : SourceLine) :
    (layout.place line).text = layout.text.extend line.instruction? := by
  rw [place_eq, (stores_fulfil _ line _).1, (layout.stores_stage line).1]

theorem data_place (line : SourceLine) :
    (layout.place line).data = line.values.foldl DataStore.push layout.data := by
  rw [place_eq, (stores_fulfil _ line _).2, (layout.stores_stage line).2]

end Place

/-! ## All lines -/

theorem text_foldl_place (lines : List SourceLine) (layout : Layout) :
    (lines.foldl place layout).text =
      (lines.filterMap SourceLine.instruction?).foldl TextStore.push layout.text := by
  induction lines generalizing layout with
  | nil => rfl
  | cons line rest ih =>
    rw [List.foldl_cons, ih, text_place, List.filterMap_cons]
    cases line.instruction? <;> rfl

theorem data_foldl_place (lines : List SourceLine) (layout : Layout) :
    (lines.foldl place layout).data =
      (lines.flatMap SourceLine.values).foldl DataStore.push layout.data := by
  induction lines generalizing layout with
  | nil => rfl
  | cons line rest ih => rw [List.foldl_cons, ih, data_place, List.flatMap_cons, List.foldl_append]

/-- The text store holds the instructions that the lines add. -/
theorem text_ofLines (lines : List SourceLine) :
    (ofLines lines).text =
      (lines.filterMap SourceLine.instruction?).foldl TextStore.push {} :=
  text_foldl_place lines {}

/-- The data store holds the values that the lines add. -/
theorem data_ofLines (lines : List SourceLine) :
    (ofLines lines).data = (lines.flatMap SourceLine.values).foldl DataStore.push {} :=
  data_foldl_place lines {}

/-! ## Labels -/

/-- Whether an address is that of a placed instruction or of a placed value. -/
def IsPlaced (text : TextStore) (data : DataStore) (address : Address) : Prop :=
  (∃ index < text.size, address = Region.text.addressOf index) ∨
    ∃ index < data.placed, address = Region.data.addressOf index

theorem IsPlaced.mono {text text' : TextStore} {data data' : DataStore} {address : Address}
    (h : IsPlaced text data address) (moreText : text.size ≤ text'.size)
    (moreData : data.placed ≤ data'.placed) : IsPlaced text' data' address := by
  rcases h with ⟨index, lt, eq⟩ | ⟨index, lt, eq⟩
  · exact .inl ⟨index, Nat.lt_of_lt_of_le lt moreText, eq⟩
  · exact .inr ⟨index, Nat.lt_of_lt_of_le lt moreData, eq⟩

/-- The invariant of placing. Without errors, every label stands for a placed item; an error may
leave a label without one. -/
structure Sound (layout : Layout) : Prop where
  dense : layout.data.Dense
  waiting : ∀ label ∈ layout.waiting, Label.isValid label.name.toList = true
  names : ∀ entry ∈ layout.labels.entries, Label.isValid entry.1.toList = true
  placed : layout.log.errors = #[] →
    ∀ entry ∈ layout.labels.entries, IsPlaced layout.text layout.data entry.2

theorem sound_empty : Sound {} where
  dense := DataStore.dense_empty
  waiting := nofun
  names := nofun
  placed := nofun

/-- The address that is free for an item is its own once it is placed. -/
theorem isPlaced_of_free {layout : Layout} {region : Region} {item : Item} {address : Address}
    (free : layout.free? region = some address) (suits : item.Suits region) (line : Nat) :
    IsPlaced (layout.text.extend (item.instruction? line))
      (item.values.foldl DataStore.push layout.data) address := by
  cases item with
  | instruction opcode operands =>
    obtain ⟨rfl, -⟩ := suits
    replace free : (if layout.text.isFull then none else some layout.text.nextAddress) =
        some address := free
    split at free
    · contradiction
    · next room =>
      obtain rfl := Option.some.inj free
      refine .inl ⟨layout.text.size, ?_, rfl⟩
      show layout.text.size < (layout.text.push _).size
      rw [TextStore.size_push (by simpa using room)]
      omega
  | words values =>
    obtain ⟨rfl, nonempty⟩ := suits
    replace free : (if layout.data.isFull then none else some layout.data.nextAddress) =
        some address := free
    split at free
    · contradiction
    · next room =>
      obtain rfl := Option.some.inj free
      refine .inr ⟨layout.data.placed, ?_, rfl⟩
      have bound := DataStore.placed_lt_of_not_full (by simpa using room)
      have := List.length_pos_iff.mpr nonempty
      show layout.data.placed < (values.foldl DataStore.push layout.data).placed
      rw [DataStore.placed_foldl_push (by omega)]
      omega

theorem Sound.stage {layout : Layout} (h : layout.Sound) (line : SourceLine) :
    (layout.stage line).Sound := by
  unfold Layout.stage
  cases line.label with
  | none => exact h
  | some name =>
    dsimp only
    unfold stageLabel
    split
    · exact { h with placed := fun silent => absurd silent (by simp [Log.error]) }
    · next valid =>
      split
      · exact { h with placed := fun silent => absurd silent (by simp [Log.error]) }
      · refine { h with waiting := fun label mem => ?_ }
        rcases List.mem_append.mp mem with before | new
        · exact h.waiting label before
        · obtain rfl := List.mem_singleton.mp new
          simpa using valid

theorem Sound.fulfil {layout : Layout} (h : layout.Sound) (line : SourceLine) (keyword : String) :
    (layout.fulfil keyword line.number (.ofLine line)).Sound := by
  cases asked : Request.ofLine line with
  | nothing errors =>
    rw [← asked]
    obtain ⟨log, grown, eq⟩ := layout.fulfil_of_nothing asked keyword
    rw [eq]
    refine { h with placed := fun silent => h.placed ?_ }
    rw [grown, Array.append_eq_empty_iff] at silent
    exact silent.1
  | item region checked =>
    rw [← asked]
    obtain ⟨log, grown, eq⟩ := layout.fulfil_of_item asked keyword
    rw [eq]
    have dense := h.dense.foldl_push line.values
    -- what was placed before stays placed
    have kept (silent : log.errors = #[]) (entry) (mem : entry ∈ layout.labels.entries) :
        IsPlaced (layout.text.extend line.instruction?)
          (line.values.foldl DataStore.push layout.data) entry.2 := by
      rw [grown, Array.append_eq_empty_iff] at silent
      refine (h.placed silent.1 entry mem).mono (TextStore.size_le_size_extend _ _) ?_
      have := h.dense.placed_le
      rw [DataStore.placed_foldl_push this]
      omega
    cases free : layout.free? region with
    | none =>
      refine ⟨dense, nofun, h.names, fun silent => kept ?_⟩
      rwa [errors_settle] at silent
    | some address =>
      -- without an error the line is accepted, so that its item takes the address
      have own (silent : log.errors = #[]) :
          IsPlaced (layout.text.extend line.instruction?)
            (line.values.foldl DataStore.push layout.data) address := by
        rw [grown, Array.append_eq_empty_iff] at silent
        have noReason : checked.errors = [] := by simpa [refusals] using silent.2
        obtain ⟨item, accepted⟩ := Request.explained_of_ofLine asked noReason
        have found : line.item? = some item := by
          unfold SourceLine.item?
          rw [asked]
          exact accepted
        have suits := Request.suits_of_ofLine asked accepted
        have placed := isPlaced_of_free free suits line.number
        unfold SourceLine.instruction? SourceLine.values
        rw [found]
        exact placed
      refine ⟨dense, nofun, fun entry mem => ?_, fun silent entry mem => ?_⟩
      · rcases LabelTable.mem_foldl_define mem with ⟨label, waits, rfl⟩ | before
        · exact h.waiting label waits
        · exact h.names entry before
      · rcases LabelTable.mem_foldl_define mem with ⟨label, -, rfl⟩ | before
        · exact own silent
        · exact kept silent entry before

theorem Sound.place {layout : Layout} (h : layout.Sound) (line : SourceLine) :
    (layout.place line).Sound :=
  (h.stage line).fulfil line _

theorem Sound.foldl_place {layout : Layout} (h : layout.Sound) (lines : List SourceLine) :
    (lines.foldl Layout.place layout).Sound := by
  induction lines generalizing layout with
  | nil => exact h
  | cons line rest ih => exact ih (h.place line)

/-- Without errors, every label of a layout has a well-formed name and stands for a placed item. -/
theorem sound_ofLines (lines : List SourceLine) : (ofLines lines).Sound := by
  have h := sound_empty.foldl_place lines
  refine ⟨h.dense, nofun, h.names, fun silent => h.placed ?_⟩
  unfold ofLines finish at silent
  rwa [Log.errors_foldl_warn] at silent

end Layout

end TinyMips
