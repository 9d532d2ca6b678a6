import TinyMips.Proofs.Assembly.Prefix
import TinyMips.Proofs.Assembly.Shift

/-!
# Neighbours of different regions

An instruction and data that stand next to each other may change places. Each goes to its own store
and leaves the other one alone, and the labels of both get the same addresses as before, or are
dropped as before. Only labels that wait in front of both would go with whichever comes first, and
equal names would be refused in one of the orders:

* **two lines** — in either order they leave layouts that hold the same, whatever was placed before
  (`Layout.behind_exchange`);
* **a source** — so it is the same program but for the numbers of the two lines
  (`Program.exchange_agrees`).
-/

namespace TinyMips

namespace Layout

/-! ## Two lines -/

variable {layout : Layout} {line first second : SourceLine} {region other : Region}

/-- An item leaves the address free that is free in the other region. -/
theorem free?_place_of_ne (asks : line.region? = some region) (apart : other ≠ region) :
    (layout.place line).free? other = layout.free? other := by
  have text := layout.text_place line
  have data := layout.data_place line
  cases region with
  | text =>
    cases other with
    | text => exact absurd rfl apart
    | data =>
      rw [SourceLine.values_of_text asks] at data
      exact congrArg DataStore.free? data
  | data =>
    cases other with
    | text =>
      rw [SourceLine.instruction?_of_data asks] at text
      exact congrArg TextStore.free? text
    | data => exact absurd rfl apart

/-- Where no label waits, the taken names are those in the table. -/
theorem isTaken_of_settled (settled : layout.waiting = []) (name : String) :
    layout.isTaken name = (layout.labels.get? name).isSome := by
  unfold isTaken LabelTable.contains
  rw [settled, List.any_nil, Bool.or_false]

/-- The labels of two admitted lines for different regions get the addresses that are free in front
of both. -/
theorem get?_place_place (settled : layout.waiting = []) (admits : layout.Admits first)
    (admits' : (layout.place first).Admits second) (asks : first.region? = some region)
    (asks' : second.region? = some other) (apart : other ≠ region) (name : String) :
    ((layout.place first).place second).labels.get? name =
      ((layout.labels.get? name).or
        (if first.label = some name then layout.free? region else none)).or
        (if second.label = some name then layout.free? other else none) := by
  rw [get?_place admits' asks', get?_place admits asks, free?_place_of_ne asks apart, settled,
    (labels_place_of_item asks).2]
  simp only [List.map_nil, List.nil_append, Option.mem_toList]

section Exchange

variable (settled : layout.waiting = []) (asks : first.region? = some region)
  (asks' : second.region? = some other)
  (distinct : ∀ name, first.label = some name → second.label ≠ some name)
  (silent : ((layout.place first).place second).log.errors = #[]) (number : Nat → Nat)

include settled asks asks' distinct silent

/-- Two lines without an error have none in the other order. -/
theorem admits_exchange :
    layout.Admits (second.renumber number) ∧
      (layout.place (second.renumber number)).Admits (first.renumber number) := by
  obtain ⟨before, admits'⟩ := errors_place_eq_empty_iff.mp silent
  have admits := (errors_place_eq_empty_iff.mp before).2
  have asks'' : (second.renumber number).region? = some other := asks'
  have early : layout.Admits (second.renumber number) := by
    refine ⟨admits'.accepted, fun name labelled => ?_⟩
    obtain ⟨valid, free⟩ := admits'.label name labelled
    refine ⟨valid, ?_⟩
    -- a name that was taken in front of the first line is taken behind it
    rw [isTaken_of_settled (labels_place_of_item asks).2] at free
    rw [isTaken_of_settled settled]
    cases defined : layout.labels.get? name with
    | none => rfl
    | some address =>
      rw [layout.extends_place first name address defined] at free
      contradiction
  refine ⟨early, admits.accepted, fun name labelled => ?_⟩
  obtain ⟨valid, free⟩ := admits.label name labelled
  refine ⟨valid, ?_⟩
  have elsewhere : ¬name ∈ (second.renumber number).label.toList := by
    rw [Option.mem_toList]
    exact distinct name labelled
  rw [isTaken_of_settled settled] at free
  rw [isTaken_of_settled (labels_place_of_item asks'').2, get?_place early asks'', settled,
    List.map_nil, List.nil_append, if_neg elsewhere, Option.or_none]
  exact free

/-- In either order, the two lines leave layouts that hold the same. -/
theorem behind_exchange (apart : region ≠ other) :
    Behind 0 ((layout.place first).place second)
      ((layout.place (second.renumber number)).place (first.renumber number)) := by
  obtain ⟨early, late⟩ := admits_exchange settled asks asks' distinct silent number
  obtain ⟨before, admits'⟩ := errors_place_eq_empty_iff.mp silent
  obtain ⟨quiet, admits⟩ := errors_place_eq_empty_iff.mp before
  have again : (second.renumber number).region? = some other := asks'
  have again' : (first.renumber number).region? = some region := asks
  refine { size := ?size, data := ?data, labels := ?labels, waiting := ?waiting, silent := ?silent }
  case size =>
    simp only [size_place, SourceLine.length_instruction?_renumber]
    omega
  case data =>
    have values (line : SourceLine) : (line.renumber number).values = line.values := rfl
    simp only [data_place, values]
    -- one of the lines adds no data
    cases region with
    | text => rw [SourceLine.values_of_text asks, List.foldl_nil, List.foldl_nil]
    | data =>
      cases other with
      | text => rw [SourceLine.values_of_text asks', List.foldl_nil, List.foldl_nil]
      | data => exact absurd rfl apart
  case labels =>
    intro name
    rw [get?_place_place settled early late again again' apart,
      get?_place_place settled admits admits' asks asks' apart.symm, Address.behind_zero,
      Option.map_id_fun, id]
    have label (line : SourceLine) : (line.renumber number).label = line.label := rfl
    rw [label, label]
    by_cases own : first.label = some name
    · rw [if_pos own, if_neg (distinct name own), Option.or_none, Option.or_none]
    · rw [if_neg own, Option.or_none, Option.or_none]
  case waiting => rw [(labels_place_of_item asks').2, (labels_place_of_item again').2]
  case silent =>
    have quiet' := errors_place_eq_empty_iff.mpr ⟨quiet, early⟩
    exact errors_place_eq_empty_iff.mpr ⟨quiet', late⟩

end Exchange

/-- So do sources in which the two lines stand in either order. -/
theorem behind_ofLines_exchange {before after : List SourceLine}
    (settled : (before.foldl place {}).waiting = []) (asks : first.region? = some region)
    (asks' : second.region? = some other) (apart : region ≠ other)
    (distinct : ∀ name, first.label = some name → second.label ≠ some name)
    (silent : (ofLines (before ++ first :: second :: after)).log.errors = #[])
    (number : Nat → Nat) :
    Behind 0 (ofLines (before ++ first :: second :: after))
      (ofLines (before ++ second.renumber number :: first.renumber number :: after)) := by
  unfold ofLines at silent ⊢
  rw [errors_finish, List.foldl_append] at silent
  have exchanged := behind_exchange settled asks asks' distinct
    (errors_eq_empty_of_foldl_place silent) number apart
  have all := exchanged.foldl_place silent (TextStore.size_le _) id
  have numbered : after.map (SourceLine.renumber id) = after := List.map_id after
  rw [numbered] at all
  rw [List.foldl_append, List.foldl_append]
  exact all.finish

end Layout

/-! ## A source -/

namespace Program

open SourceLine (count placed)

section Exchange

variable {before after : List SourceLine} {first second : SourceLine} {program : Program}
  (h : ofLines (before ++ first :: second :: after) = .ok program) {region other : Region}
  (asks : first.region? = some region) (asks' : second.region? = some other)
  (apart : region ≠ other) (number : Nat → Nat)

include h asks asks' apart

/-- Of the two lines, one adds an instruction. -/
theorem exists_instruction_of_pair :
    ∃ inst, [first, second].filterMap SourceLine.instruction? = [inst] ∧
      [second.renumber number, first.renumber number].filterMap SourceLine.instruction? =
        [inst.renumber number] := by
  obtain ⟨silent, -, -⟩ := ofLines_eq_ok h
  have found : (before ++ first :: second :: after)[before.length]? = some first := by simp
  have found' : (before ++ first :: second :: after)[before.length + 1]? = some second := by simp
  have adds := SourceLine.isSome_instruction?_iff (Layout.accepted_of_no_errors silent found).1
  have adds' := SourceLine.isSome_instruction?_iff (Layout.accepted_of_no_errors silent found').1
  simp only [List.filterMap_cons, List.filterMap_nil, SourceLine.instruction?_renumber]
  cases region with
  | text =>
    cases other with
    | text => exact absurd rfl apart
    | data =>
      obtain ⟨inst, eq⟩ := Option.isSome_iff_exists.mp (adds.mpr asks)
      rw [eq, SourceLine.instruction?_of_data asks']
      exact ⟨inst, rfl, rfl⟩
  | data =>
    cases other with
    | text =>
      obtain ⟨inst, eq⟩ := Option.isSome_iff_exists.mp (adds'.mpr asks')
      rw [eq, SourceLine.instruction?_of_data asks]
      exact ⟨inst, rfl, rfl⟩
    | data => exact absurd rfl apart

/-- The lines in the other order place the same instructions, but for the number of one. -/
theorem placed_exchange :
    placed (before ++ second.renumber number :: first.renumber number :: after) =
      (placed (before ++ first :: second :: after)).modify (count before .text)
        (Instruction.renumber number) := by
  obtain ⟨inst, one, one'⟩ := exists_instruction_of_pair h asks asks' apart number
  have split (a b : SourceLine) :
      (before ++ a :: b :: after).filterMap SourceLine.instruction? =
        before.filterMap SourceLine.instruction? ++
          ([a, b].filterMap SourceLine.instruction? ++
            after.filterMap SourceLine.instruction?) := by
    rw [← List.filterMap_append, ← List.filterMap_append]
    rfl
  unfold placed count
  rw [split, split, one, one', ← List.take_modify]
  simp [List.modify_eq_take_cons_drop]

/-- An instruction and data next to each other may change places: if no label waits in front of them
and they do not define the same label, the lines assemble in the other order, to the same data, the
same labels and the same instructions, whatever numbers the two lines are given. -/
theorem exchange_agrees
    (distinct : ∀ name, first.label = some name → second.label ≠ some name)
    (settled : (before.foldl Layout.place {}).waiting = []) :
    ∃ exchanged,
      ofLines (before ++ second.renumber number :: first.renumber number :: after) =
        .ok exchanged ∧
      exchanged.data = program.data ∧ exchanged.labels = program.labels ∧
      exchanged.text = program.text.modify (count before .text) (Instruction.renumber number) := by
  obtain ⟨silent, -, made⟩ := ofLines_eq_ok h
  have same := Layout.behind_ofLines_exchange settled asks asks' apart distinct silent number
  have placed' := placed_exchange h asks asks' apart number
  set lines := before ++ first :: second :: after
  set lines' := before ++ second.renumber number :: first.renumber number :: after
  have labels : (Layout.ofLines lines').labels = program.labels := by
    rw [made]
    refine LabelTable.eq_of_get? fun name => ?_
    rw [same.labels, Address.behind_zero, Option.map_id_fun, id]
  -- a reference is linked as before, as its instruction stands at the same index
  obtain ⟨exchanged, ok⟩ := exists_ofLines same.silent fun index written found => by
    rw [placed', List.getElem?_modify] at found
    obtain ⟨origin, there, rfl⟩ := Option.map_eq_some_iff.mp found
    have clean := clean_of_placed h there
    rw [labels]
    split
    · rw [Instruction.linkError?_layAt_renumber, clean]
      rfl
    · exact clean
  obtain ⟨-, -, made'⟩ := ofLines_eq_ok ok
  have tables : exchanged.labels = program.labels := by rw [made', labels]
  refine ⟨exchanged, ok, ?_, tables, TextStore.eq_of_get? fun index => ?_⟩
  · rw [made, made', same.data]
  · rw [get?_text ok, TextStore.get?_modify, get?_text h, placed', List.getElem?_modify, tables]
    cases (placed lines)[index]? with
    | none => simp
    | some written =>
      by_cases here : count before .text = index
      · simp [here, Instruction.assembleAt_renumber]
      · simp [here]

end Exchange

/-- A load in front of the data that it refers to changes places with it, and each takes the number
of the other one. -/
theorem exchange_agrees_of_forward_reference :
    let before := SourceLine.ofSource "nop"
    let first := SourceLine.ofText 2 "loop: lw r1, v".toList
    let second := SourceLine.ofText 3 "v: .word 7".toList
    let after := [SourceLine.ofText 4 "bne r1, r0, loop".toList]
    let number := fun line => 5 - line
    ∃ program exchanged,
      ofLines (before ++ first :: second :: after) = .ok program ∧
      ofLines (before ++ second.renumber number :: first.renumber number :: after) =
        .ok exchanged ∧
      program.text.instructions.map Instruction.line = #[some 1, some 2, some 4] ∧
      exchanged.text.instructions.map Instruction.line = #[some 1, some 3, some 4] ∧
      program.labels.size = 2 ∧ exchanged.labels = program.labels ∧
      exchanged.data = program.data := by
  intro before first second after number
  have parts : (ofLines (before ++ first :: second :: after)).toOption.map
      (fun program => (program.text.instructions.map Instruction.line, program.labels.size)) =
        some (#[some 1, some 2, some 4], 2) := by
    decide +kernel
  have lines :
      (ofLines (before ++ second.renumber number :: first.renumber number :: after)).toOption.map
        (fun exchanged => exchanged.text.instructions.map Instruction.line) =
          some #[some 1, some 3, some 4] := by
    decide +kernel
  have asks : first.region? = some .text := by decide +kernel
  have asks' : second.region? = some .data := by decide +kernel
  have settled : (before.foldl Layout.place {}).waiting = [] := by decide +kernel
  have distinct (name : String) (labelled : first.label = some name) :
      second.label ≠ some name := by
    intro same
    exact absurd (labelled.trans same.symm) (by decide +kernel)
  cases h : ofLines (before ++ first :: second :: after) with
  | error reasons =>
    rw [h] at parts
    cases parts
  | ok program =>
    obtain ⟨exchanged, ok, data, labels, -⟩ :=
      exchange_agrees h asks asks' nofun number distinct settled
    rw [h] at parts
    rw [ok] at lines
    obtain ⟨numbers, size⟩ := Prod.mk.inj (Option.some.inj parts)
    exact ⟨program, exchanged, rfl, ok, numbers, Option.some.inj lines, size, labels, data⟩

end Program

end TinyMips
