import TinyMips.Proofs.Assembly.Warnings

/-!
# What becomes of labels

A label waits for the first line, from the one that defines it on, that asks for an item. It is
attached to the address of that item if there is room for it, and dropped if there is not. Where no
such line follows, the label is left dangling.

* **outcomes** — `Layout.outcomes` lists the labels that wait or are defined later, each with its
  fate, and one line either passes them on or settles all that wait
  (`Layout.outcomes_cons_of_nothing`, `Layout.outcomes_cons_of_item`);
* **table** — the entries of a layout are the labels that were attached, and no two have the same
  name (`Layout.perm_entries_ofLines`);
* **warnings** — the warnings about labels are those of the others, in the order of their
  definitions (`Layout.labelWarnings_ofLines`).
-/

namespace TinyMips

/-- What becomes of a label. -/
inductive Fate where
  | attached (region : Region) (address : Address)
  | dropped
  | dangling
  deriving DecidableEq

/-- The fate of the labels whose item is of a region and gets an address, or none. -/
def Fate.ofItem (region : Region) : Option Address → Fate
  | some address => .attached region address
  | none => .dropped

/-- A label with what becomes of it. -/
structure LabelOutcome where
  label : WaitingLabel
  fate : Fate
  deriving DecidableEq

namespace LabelOutcome

/-- The entry of an attached label. -/
def entry? (outcome : LabelOutcome) : Option (String × Address) :=
  match outcome.fate with
  | .attached _ address => some (outcome.label.name, address)
  | .dropped | .dangling => none

/-- The warning about a label that is not attached. -/
def warning? (outcome : LabelOutcome) : Option LogEntry :=
  match outcome.fate with
  | .attached .. => none
  | .dropped =>
    some { line := some outcome.label.line, message := .labelDropped outcome.label.name }
  | .dangling =>
    some { line := some outcome.label.line, message := .labelNotFollowed outcome.label.name }

end LabelOutcome

/-- Whether a message is about a label that is not attached to an item. -/
def Message.isUnattached : Message → Bool
  | .labelDropped _ | .labelNotFollowed _ => true
  | _ => false

/-- The warnings about labels that are not attached. -/
def Log.labelWarnings (log : Log) : List LogEntry :=
  log.warnings.toList.filter fun entry => entry.message.isUnattached

/-- Labels of new names that get an address together are added to the table. -/
theorem LabelTable.perm_foldl_define {address : Address} {labels : List WaitingLabel}
    {table : LabelTable} (distinct : (table.names ++ labels.map WaitingLabel.name).Nodup) :
    (labels.foldl (fun table label => table.define label.name address) table).entries.Perm
      (table.entries ++ labels.map fun label => (label.name, address)) := by
  induction labels generalizing table with
  | nil => simp
  | cons label rest ih =>
    rw [List.map_cons] at distinct
    have distinct := List.perm_middle.nodup_iff.mp distinct
    have absent : label.name ∉ table.names := by
      intro mem
      exact (List.nodup_cons.mp distinct).1 (List.mem_append_left _ mem)
    have defined := perm_define absent address
    have next : ((table.define label.name address).names ++ rest.map WaitingLabel.name).Nodup :=
      ((defined.map Prod.fst).append_right _).nodup_iff.mpr distinct
    exact (ih next).trans ((defined.append_right _).trans List.perm_middle.symm)

namespace Layout

/-! ## Definitions and fates -/

/-- The label that a line adds to those that wait: a well-formed one that is not taken. -/
def newLabel? (layout : Layout) (line : SourceLine) : Option WaitingLabel :=
  line.label.bind fun name =>
    if Label.isValid name.toList = true ∧ layout.isTaken name = false then
      some { name, line := line.number }
    else none

/-- The fate of the labels that wait in front of some lines. -/
def fate (layout : Layout) (lines : List SourceLine) : Fate :=
  match lines.findSome? SourceLine.region? with
  | some region => .ofItem region (layout.free? region)
  | none => .dangling

/-- The outcome of the definition on a line, the one at the given index of some lines. -/
def outcome? (layout : Layout) (lines : List SourceLine) (line : SourceLine) (index : Nat) :
    Option LabelOutcome :=
  let before := (lines.take index).foldl place layout
  (before.newLabel? line).map fun label => { label, fate := before.fate (lines.drop index) }

/-- The labels that wait in front of some lines and those that the lines define. -/
def outcomes (layout : Layout) (lines : List SourceLine) : List LabelOutcome :=
  (layout.waiting.map fun label => { label, fate := layout.fate lines }) ++
    lines.zipIdx.filterMap fun (line, i) => layout.outcome? lines line i

section Place

variable {layout : Layout} {line : SourceLine} {rest : List SourceLine} {region : Region}

theorem waiting_stage :
    (layout.stage line).waiting = layout.waiting ++ (layout.newLabel? line).toList := by
  unfold stage newLabel?
  cases line.label with
  | none => simp
  | some name =>
    cases valid : Label.isValid name.toList with
    | false => simp [stageLabel, valid]
    | true => cases taken : layout.isTaken name <;> simp [stageLabel, valid, taken]

theorem labels_stage : (layout.stage line).labels = layout.labels := by
  unfold stage stageLabel
  cases line.label with
  | none => rfl
  | some name =>
    dsimp only
    split
    · rfl
    · split <;> rfl

theorem labels_place_of_nothing (asks : line.region? = none) :
    (layout.place line).labels = layout.labels ∧
      (layout.place line).waiting = (layout.stage line).waiting := by
  obtain ⟨errors, asked⟩ := SourceLine.region?_eq_none_iff.mp asks
  rw [place_eq, asked, fulfil]
  exact ⟨labels_stage, rfl⟩

theorem labels_place_of_item (asks : line.region? = some region) :
    (layout.place line).labels = ((layout.stage line).settle (layout.free? region)).labels ∧
      (layout.place line).waiting = [] := by
  obtain ⟨checked, asked⟩ := SourceLine.region?_eq_some_iff.mp asks
  obtain ⟨log, -, eq⟩ := (layout.stage line).fulfil_of_item asked (line.keyword.getD "")
  obtain ⟨text, data⟩ := layout.stores_stage line
  have free : (layout.stage line).free? region = layout.free? region := by
    cases region with
    | text => exact congrArg TextStore.free? text
    | data => exact congrArg DataStore.free? data
  rw [place_eq, eq, free]
  cases layout.free? region <;> exact ⟨rfl, rfl⟩

theorem free?_place_of_nothing (asks : line.region? = none) (region : Region) :
    (layout.place line).free? region = layout.free? region := by
  have text := layout.text_place line
  have data := layout.data_place line
  rw [SourceLine.instruction?_of_region? asks] at text
  rw [SourceLine.values_of_region? asks] at data
  cases region with
  | text => exact congrArg TextStore.free? text
  | data => exact congrArg DataStore.free? data

theorem fate_cons_of_nothing (asks : line.region? = none) :
    layout.fate (line :: rest) = (layout.place line).fate rest := by
  simp only [fate, List.findSome?_cons, asks, free?_place_of_nothing asks]

theorem fate_cons_of_item (asks : line.region? = some region) :
    layout.fate (line :: rest) = .ofItem region (layout.free? region) := by
  simp only [fate, List.findSome?_cons, asks]

/-! ## One line and the outcomes -/

theorem outcomes_cons :
    layout.outcomes (line :: rest) =
      ((layout.stage line).waiting.map fun label =>
        { label, fate := layout.fate (line :: rest) }) ++
      rest.zipIdx.filterMap fun (next, i) => (layout.place line).outcome? rest next i := by
  unfold outcomes
  rw [waiting_stage, List.map_append, List.append_assoc, List.zipIdx_cons, List.zipIdx_succ,
    List.filterMap_cons]
  cases new : layout.newLabel? line <;> simp [outcome?, new, Function.comp_def]

theorem outcomes_cons_of_nothing (asks : line.region? = none) :
    layout.outcomes (line :: rest) = (layout.place line).outcomes rest := by
  rw [outcomes_cons, fate_cons_of_nothing asks, ← (labels_place_of_nothing asks).2]
  rfl

theorem outcomes_cons_of_item (asks : line.region? = some region) :
    layout.outcomes (line :: rest) =
      ((layout.stage line).waiting.map fun label =>
        { label, fate := .ofItem region (layout.free? region) }) ++
      (layout.place line).outcomes rest := by
  rw [outcomes_cons, fate_cons_of_item asks]
  congr 1
  unfold outcomes
  rw [(labels_place_of_item asks).2]
  rfl

end Place

/-! ## The table -/

/-- The names that are taken. -/
def taken (layout : Layout) : List String :=
  layout.labels.names ++ layout.waiting.map WaitingLabel.name

theorem isTaken_iff {layout : Layout} {name : String} :
    layout.isTaken name = true ↔ name ∈ layout.taken := by
  unfold isTaken taken
  rw [Bool.or_eq_true, LabelTable.contains_iff, List.mem_append]
  simp

theorem entries_attached (region : Region) (address : Address) (labels : List WaitingLabel) :
    (labels.map fun label =>
      ({ label, fate := .ofItem region (some address) } : LabelOutcome)).filterMap
        LabelOutcome.entry? =
      labels.map fun label => (label.name, address) := by
  rw [List.filterMap_map]
  exact congrFun (List.filterMap_eq_map) labels

theorem entries_of_no_address {fate : Fate} (h : ∀ region address, fate ≠ .attached region address)
    (labels : List WaitingLabel) :
    (labels.map fun label => ({ label, fate } : LabelOutcome)).filterMap LabelOutcome.entry? =
      [] := by
  rw [List.filterMap_map, List.filterMap_eq_nil_iff]
  intro label _
  cases fate with
  | attached region address => exact absurd rfl (h region address)
  | dropped | dangling => rfl

variable {layout : Layout} {line : SourceLine} {region : Region}

/-- Labels of new names get their entries. -/
theorem perm_entries_settle (distinct : layout.taken.Nodup) (region : Region)
    (address? : Option Address) :
    (layout.settle address?).labels.entries.Perm
      (layout.labels.entries ++
        (layout.waiting.map fun label =>
          ({ label, fate := .ofItem region address? } : LabelOutcome)).filterMap
            LabelOutcome.entry?) := by
  cases address? with
  | none =>
    rw [entries_of_no_address (by simp [Fate.ofItem]), List.append_nil]
    exact List.Perm.refl _
  | some address =>
    rw [entries_attached]
    exact LabelTable.perm_foldl_define distinct

/-! ### No name is taken twice -/

theorem nodup_taken_stage (distinct : layout.taken.Nodup) (line : SourceLine) :
    (layout.stage line).taken.Nodup := by
  have before : (layout.stage line).taken =
      layout.taken ++ (layout.newLabel? line).toList.map WaitingLabel.name := by
    unfold taken
    rw [labels_stage, waiting_stage, List.map_append, List.append_assoc]
  rw [before]
  cases new : layout.newLabel? line with
  | none => simpa using distinct
  | some label =>
    have free : label.name ∉ layout.taken := by
      unfold newLabel? at new
      rw [Option.bind_eq_some_iff] at new
      obtain ⟨name, -, made⟩ := new
      split at made
      · next accepted =>
        obtain rfl := Option.some.inj made
        rw [← isTaken_iff, accepted.2]
        exact Bool.false_ne_true
      · contradiction
    exact (List.perm_append_singleton _ _).nodup_iff.mpr (List.nodup_cons.mpr ⟨free, distinct⟩)

theorem nodup_taken_place (distinct : layout.taken.Nodup) (line : SourceLine) :
    (layout.place line).taken.Nodup := by
  have staged := nodup_taken_stage distinct line
  cases asks : line.region? with
  | none =>
    obtain ⟨labels, waiting⟩ := @labels_place_of_nothing layout line asks
    unfold taken at staged ⊢
    rw [labels, waiting, ← @labels_stage layout line]
    exact staged
  | some region =>
    obtain ⟨labels, waiting⟩ := @labels_place_of_item layout line region asks
    unfold taken at staged ⊢
    rw [waiting, labels, List.map_nil, List.append_nil]
    -- settling moves waiting names into the table or forgets them
    cases layout.free? region with
    | none => exact staged.sublist (List.sublist_append_left _ _)
    | some address =>
      have names := (@LabelTable.perm_foldl_define address _ _ staged).map Prod.fst
      rw [List.map_append, List.map_map] at names
      exact names.nodup_iff.mpr staged

/-! ### All lines -/

/-- The entries after some lines are those before and those of the labels that were attached. -/
theorem perm_entries_foldl_place (lines : List SourceLine) {layout : Layout}
    (distinct : layout.taken.Nodup) :
    (lines.foldl place layout).labels.entries.Perm
      (layout.labels.entries ++ (layout.outcomes lines).filterMap LabelOutcome.entry?) := by
  induction lines generalizing layout with
  | nil =>
    have outcomes : layout.outcomes [] =
        layout.waiting.map fun label => { label, fate := .dangling } := by
      simp [outcomes, fate]
    rw [outcomes, entries_of_no_address (by simp), List.append_nil]
    exact List.Perm.refl _
  | cons line rest ih =>
    have later := ih (nodup_taken_place distinct line)
    rw [List.foldl_cons]
    cases asks : line.region? with
    | none =>
      rw [(labels_place_of_nothing asks).1] at later
      rw [outcomes_cons_of_nothing asks]
      exact later
    | some region =>
      rw [(labels_place_of_item asks).1] at later
      rw [outcomes_cons_of_item asks, List.filterMap_append, ← List.append_assoc]
      refine later.trans (List.Perm.append_right _ ?_)
      have settled := perm_entries_settle (nodup_taken_stage distinct line) region
        (layout.free? region)
      rw [labels_stage] at settled
      exact settled

theorem perm_entries_ofLines (lines : List SourceLine) :
    (ofLines lines).labels.entries.Perm
      ((({} : Layout).outcomes lines).filterMap LabelOutcome.entry?) :=
  have distinct : ({} : Layout).taken.Nodup := List.nodup_nil
  perm_entries_foldl_place lines distinct

/-! ## The warnings -/

theorem filter_warnings (outcomes : List LabelOutcome) :
    (outcomes.filterMap LabelOutcome.warning?).filter (fun entry => entry.message.isUnattached) =
      outcomes.filterMap LabelOutcome.warning? := by
  rw [List.filter_eq_self]
  intro entry mem
  obtain ⟨⟨label, fate⟩, -, warned⟩ := List.mem_filterMap.mp mem
  cases fate with
  | attached region address => contradiction
  | dropped | dangling =>
    obtain rfl := Option.some.inj warned
    rfl

theorem dropped_eq (region : Region) (waiting : List WaitingLabel) (address? : Option Address) :
    dropped waiting address? =
      (waiting.map fun label =>
        ({ label, fate := .ofItem region address? } : LabelOutcome)).filterMap
          LabelOutcome.warning? := by
  rw [List.filterMap_map]
  cases address? with
  | none => exact (congrFun List.filterMap_eq_map waiting).symm
  | some address => simp [dropped, LabelOutcome.warning?, Fate.ofItem, Function.comp_def]

/-- What a line warns about apart from labels. -/
theorem filter_warnings_item (asks : line.region? = some region) :
    ((Request.ofLine line).warnings.map fun message =>
      ({ line := some line.number, message } : LogEntry)).filter
        (fun entry => entry.message.isUnattached) = [] ∧
    (layout.overflow line).filter (fun entry => entry.message.isUnattached) = [] := by
  constructor
  · obtain ⟨checked, asked⟩ := SourceLine.region?_eq_some_iff.mp asks
    rw [asked, List.filter_eq_nil_iff]
    intro entry mem
    obtain ⟨message, warned, rfl⟩ := List.mem_map.mp mem
    obtain ⟨token, rfl⟩ := Request.hardwired_of_mem_warnings asked warned
    exact Bool.false_ne_true
  · unfold overflow
    split
    · split <;> rfl
    · split <;> rfl
    · rfl

/-- The warnings about labels after some lines are those before and those about the labels that
were not attached, in the order in which they were defined. -/
theorem labelWarnings_foldl_place (lines : List SourceLine) (layout : Layout) :
    (lines.foldl place layout).finish.log.labelWarnings =
      layout.log.labelWarnings ++ (layout.outcomes lines).filterMap LabelOutcome.warning? := by
  induction lines generalizing layout with
  | nil =>
    have outcomes : layout.outcomes [] =
        layout.waiting.map fun label => { label, fate := .dangling } := by
      simp [outcomes, fate]
    have left : (layout.outcomes []).filterMap LabelOutcome.warning? =
        layout.waiting.map fun label =>
          ({ line := some label.line, message := .labelNotFollowed label.name } : LogEntry) := by
      rw [outcomes, List.filterMap_map]
      exact congrFun List.filterMap_eq_map layout.waiting
    have all := filter_warnings (layout.outcomes [])
    rw [left] at all ⊢
    unfold Log.labelWarnings
    rw [List.foldl_nil, warnings_finish, List.filter_append, all]
  | cons line rest ih =>
    rw [List.foldl_cons, ih]
    cases asks : line.region? with
    | none =>
      unfold Log.labelWarnings
      rw [outcomes_cons_of_nothing asks, warnings_place_of_nothing _ _ asks]
    | some region =>
      obtain ⟨checked, overflow⟩ := @filter_warnings_item layout line region asks
      unfold Log.labelWarnings
      rw [outcomes_cons_of_item asks, warnings_place_of_item _ _ asks, List.filter_append,
        List.filter_append, List.filter_append, checked, overflow, dropped_eq region,
        filter_warnings, List.filterMap_append]
      simp only [List.append_nil, List.append_assoc]

theorem labelWarnings_ofLines (lines : List SourceLine) :
    (ofLines lines).log.labelWarnings =
      (({} : Layout).outcomes lines).filterMap LabelOutcome.warning? :=
  labelWarnings_foldl_place lines {}

end Layout

end TinyMips
