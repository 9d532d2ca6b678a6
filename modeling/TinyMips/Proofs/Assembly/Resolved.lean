import TinyMips.Proofs.Assembly.Alike
import TinyMips.Proofs.Assembly.LinkErrors
import TinyMips.Proofs.Assembly.Literal

/-!
# References written as literals

A label reference and the literal that it is linked to are the same to the assembler:

* **lines** — `SourceLine.resolve` writes the literal where the label stands, and the line then asks
  for the instruction that linking makes of it (`SourceLine.resolve_alike`);
* **stores** — stores that are linked to the same instructions fail for the same references
  (`TextStore.linkErrors_eq_empty_iff`);
* **programs** — whichever references of an accepted source are written as literals, the program is
  the same (`Program.literals_agree`).
-/

namespace TinyMips

/-! ## References of instructions -/

namespace Instruction

/-- The immediate that stands for an address in an instruction, as an integer: the distance in
instruction words from the next instruction for branches, and the word address otherwise. -/
def referenceValue (op : Opcode) (own target : Address) : Int :=
  if op.format = .branch then ((target.toNat : Int) - (own.toNat + 4)) / 4
  else (target.toNat : Int) / 4

variable {inst : Instruction} {labels : LabelTable} {name : String} {value : Word}

theorem toInt_of_labelImmediate (own : Region.text.Supports inst.address.toNat)
    (linked : inst.labelImmediate labels name = .ok value) :
    ∃ target, labels.get? name = some target ∧
      value.toInt = referenceValue inst.opcode inst.address target := by
  obtain ⟨target, defined, supported, encoded⟩ := labelImmediate_eq_ok linked
  refine ⟨target, defined, ?_⟩
  unfold referenceValue
  by_cases branches : inst.opcode.format = .branch
  · have text : labelRegion inst.opcode = .text := by
      unfold labelRegion
      rw [branches]
      rfl
    rw [text] at supported
    rw [if_pos branches] at encoded ⊢
    rw [encoded.1, toInt_branchOffset own supported]
  · rw [if_neg branches] at encoded ⊢
    rw [encoded, Word.toInt_ofBytes, Region.toInt_toInt64 supported]

theorem label?_withLiteral (operands : Operands) :
    (operands.withImmediate (.literal value)).label? = none := by
  cases operands <;> rfl

/-- An instruction is linked without an error exactly if no label is left. -/
theorem linkError?_eq_none_iff :
    inst.linkError? labels = none ↔ (inst.link labels).label? = none := by
  cases refers : inst.label? with
  | none => simp [linkError?_of_unlabelled refers, link_of_unlabelled refers, refers]
  | some name =>
    constructor
    · intro clean
      obtain ⟨value, -, eq⟩ := link_of_label refers clean
      rw [eq]
      exact label?_withLiteral inst.operands
    · intro unlabelled
      rw [linkError?_of_label refers]
      cases linked : inst.labelImmediate labels name with
      | ok value => rfl
      | error message =>
        have kept : inst.link labels = inst := by simp [link, link?, refers, linked]
        rw [kept, refers] at unlabelled
        contradiction

/-- The instruction at the address of an index, linked there. -/
def linkAt (inst : Instruction) (labels : LabelTable) (index : Nat) : Instruction :=
  (inst.layAt index).link labels

end Instruction

/-! ## References of lines -/

namespace SourceLine

/-- The literal for the label that a line refers to, if its instruction is the one at an index. -/
def reference? (labels : LabelTable) (index : Nat) (line : SourceLine) : Option Int :=
  if index < 256 then
    line.instruction?.bind fun inst => inst.label?.bind fun name =>
      (labels.get? name).map fun target =>
        Instruction.referenceValue inst.opcode (Region.text.addressOf index) target
  else none

/-- The line with a decimal for its last operand. -/
def withLiteral (line : SourceLine) (value : Int) : SourceLine :=
  { line with
    operands := String.ofList
      (Operand.replaceLast line.operands.toList (Numeral.decimal value)) }

/-- The line with its label reference, if it has one, written as a literal. -/
def resolve (labels : LabelTable) (index : Nat) (line : SourceLine) : SourceLine :=
  match line.reference? labels index with
  | some value => line.withLiteral value
  | none => line

/-- Lines with the label references on the chosen ones written as literals. -/
def resolveAt (labels : LabelTable) (chosen : Nat → Bool) (lines : List SourceLine) :
    List SourceLine :=
  lines.mapIdx fun i line =>
    if chosen i then line.resolve labels (count (lines.take i) .text) else line

variable {line : SourceLine} {inst : Instruction} {labels : LabelTable} {name : String}
  {index : Nat} {value : Word}

/-- The literal of a reference is the value that it is linked to. -/
theorem reference?_of_label (adds : line.instruction? = some inst)
    (refers : inst.label? = some name) (lt : index < 256)
    (linked : (inst.layAt index).labelImmediate labels name = .ok value) :
    line.reference? labels index = some value.toInt := by
  obtain ⟨target, defined, encoded⟩ :=
    Instruction.toInt_of_labelImmediate (Region.supports_addressOf .text lt) linked
  unfold reference?
  rw [if_pos lt, adds, Option.bind_some, refers, Option.bind_some, defined, Option.map_some,
    encoded]
  rfl

/-- A line that refers to a label is accepted with a literal within the bounds of its opcode. -/
theorem alike_withLiteral (adds : line.instruction? = some inst) (refers : inst.label? = some name)
    (bounds : (inst.operands.withImmediate (.literal value)).Accepted inst.opcode) :
    line.Alike (line.withLiteral value.toInt) ∧
      (line.withLiteral value.toInt).instruction? =
        some { inst with operands := inst.operands.withImmediate (.literal value) } := by
  obtain ⟨mnemonic, bundle, written, undotted, known, accepted, eq⟩ := check_of_instruction? adds
  have operands : inst.operands = bundle.operands := congrArg Instruction.operands eq
  have label : bundle.operands.label? = some name := by
    rw [← operands]
    exact refers
  rw [operands] at bounds
  obtain ⟨replaced, warnings⟩ := Operand.check_replaceLast accepted label bounds
  have text : (line.withLiteral value.toInt).operands.toList =
      Operand.replaceLast line.operands.toList (Numeral.decimal value.toInt) :=
    String.toList_ofList
  have before := Request.ofLine_of_check written undotted known accepted
  rw [← text] at replaced
  have after : Request.ofLine (line.withLiteral value.toInt) = _ :=
    Request.ofLine_of_check written undotted known replaced
  rw [text, warnings] at after
  refine ⟨⟨rfl, rfl, rfl, ?_⟩, ?_⟩
  · rw [before, after]
    exact .instruction _ _ _ _
  · unfold instruction? item?
    rw [after, eq]
    rfl

theorem label_of_reference? {literal : Int}
    (reference : line.reference? labels index = some literal) :
    index < 256 ∧ ∃ inst name, line.instruction? = some inst ∧ inst.label? = some name := by
  unfold reference? at reference
  split at reference
  · next lt =>
    obtain ⟨inst, adds, reference⟩ := Option.bind_eq_some_iff.mp reference
    obtain ⟨name, refers, -⟩ := Option.bind_eq_some_iff.mp reference
    exact ⟨lt, inst, name, adds, refers⟩
  · contradiction

/-- A line with its reference written as a literal asks for the instruction that is linked to the
same. -/
theorem resolve_alike
    (clean : ∀ inst, line.instruction? = some inst → index < 256 →
      (inst.layAt index).linkError? labels = none) :
    line.Alike (line.resolve labels index) ∧
      (line.resolve labels index).instruction?.map (fun inst => inst.linkAt labels index) =
        line.instruction?.map fun inst => inst.linkAt labels index := by
  unfold resolve
  cases reference : line.reference? labels index with
  | none => exact ⟨.refl line, rfl⟩
  | some literal =>
    obtain ⟨lt, inst, name, adds, refers⟩ := label_of_reference? reference
    have error := clean inst adds lt
    have laid : (inst.layAt index).label? = some name := refers
    obtain ⟨value, linked, eq⟩ := Instruction.link_of_label laid error
    rw [reference?_of_label adds refers lt linked] at reference
    obtain rfl := Option.some.inj reference
    -- what the label is linked to is within the bounds of the opcode
    have accepted : (inst.layAt index).operands.Accepted (inst.layAt index).opcode :=
      (accepted_of_instruction? adds).1
    have bounds := (Instruction.accepted_link accepted error).1
    rw [eq] at bounds
    obtain ⟨alike, written⟩ := alike_withLiteral adds refers bounds
    refine ⟨alike, ?_⟩
    dsimp only
    rw [written, adds, Option.map_some, Option.map_some, Instruction.linkAt, Instruction.linkAt,
      eq]
    congr 1
    exact Instruction.link_of_unlabelled (Instruction.label?_withLiteral inst.operands)

end SourceLine

/-! ## Linked stores -/

namespace TextStore

variable {store other : TextStore} {labels : LabelTable}

/-- A store is linked without an error exactly if no label is left. -/
theorem linkErrors_eq_empty_iff :
    store.linkErrors labels = #[] ↔
      ∀ inst ∈ (store.link labels).instructions, inst.label? = none := by
  unfold linkErrors link map
  rw [Array.filterMap_eq_empty_iff]
  simp [Instruction.linkError?_eq_none_iff]

theorem size_eq_of_link (same : other.link labels = store.link labels) :
    other.size = store.size := by
  have sizes := congrArg size same
  unfold link at sizes
  rwa [size_map, size_map] at sizes

theorem extend_of_full (full : store.isFull = true) (inst? : Option Instruction) :
    store.extend inst? = store := by
  cases inst? with
  | none => rfl
  | some inst => exact push_of_full full inst

theorem link_push (room : store.isFull = false) (inst : Instruction) :
    ((store.push inst).link labels).instructions =
      (store.link labels).instructions.push (inst.linkAt labels store.size) := by
  unfold link map
  dsimp only
  rw [instructions_push room, Array.map_push]
  rfl

/-- Stores that are linked to the same stay so when both get instructions that are. -/
theorem link_extend_congr (same : other.link labels = store.link labels)
    {inst? inst'? : Option Instruction}
    (agree : store.size < 256 →
      inst'?.map (fun inst => inst.linkAt labels store.size) =
        inst?.map fun inst => inst.linkAt labels store.size) :
    (other.extend inst'?).link labels = (store.extend inst?).link labels := by
  have size := size_eq_of_link same
  cases full : store.isFull with
  | true =>
    have full' : other.isFull = true := (isFull_eq size).trans full
    rw [extend_of_full full, extend_of_full full', same]
  | false =>
    have room : other.isFull = false := (isFull_eq size).trans full
    have linked := agree (size_lt_of_not_full full)
    cases inst'? with
    | none =>
      cases inst? with
      | none => exact same
      | some inst => contradiction
    | some inst' =>
      cases inst? with
      | none => contradiction
      | some inst =>
        have here : inst'.linkAt labels store.size = inst.linkAt labels store.size :=
          Option.some.inj linked
        apply eq_of_instructions
        show ((other.push inst').link labels).instructions =
          ((store.push inst).link labels).instructions
        rw [link_push room, link_push full, same, size, here]

end TextStore

/-! ## Programs -/

namespace Layout

open SourceLine (count resolve resolveAt)

variable {lines : List SourceLine} {labels : LabelTable}

/-- The layouts of lines with and without literals differ in nothing but instructions that are
linked to the same. -/
theorem foldl_place_resolveAt (chosen : Nat → Bool)
    (clean : ∀ i line inst, lines[i]? = some line → line.instruction? = some inst →
      count (lines.take i) .text < 256 →
      (inst.layAt (count (lines.take i) .text)).linkError? labels = none)
    (i : Nat) (le : i ≤ lines.length) :
    ∃ text : TextStore,
      ((resolveAt labels chosen lines).take i).foldl place {} =
        ((lines.take i).foldl place {}).withText text ∧
      text.link labels = ((lines.take i).foldl place {}).text.link labels := by
  induction i with
  | zero => exact ⟨{}, rfl, rfl⟩
  | succ i ih =>
    obtain ⟨text, eq, linked⟩ := ih (by omega)
    have found : lines[i]? = some lines[i] := List.getElem?_eq_getElem le
    have size := TextStore.size_eq_of_link linked
    -- the line is alike and asks for an instruction that is linked to the same, replaced or not
    have step : ∃ line', (resolveAt labels chosen lines)[i]? = some line' ∧
        lines[i].Alike line' ∧
        line'.instruction?.map (fun inst => inst.linkAt labels (count (lines.take i) .text)) =
          lines[i].instruction?.map fun inst =>
            inst.linkAt labels (count (lines.take i) .text) := by
      unfold resolveAt
      rw [List.getElem?_mapIdx, found, Option.map_some]
      cases chosen i with
      | false => exact ⟨_, rfl, .refl _, rfl⟩
      | true => exact ⟨_, rfl, SourceLine.resolve_alike fun inst => clean i _ inst found⟩
    obtain ⟨line', found', alike, agree⟩ := step
    rw [List.take_add_one, List.take_add_one, found, found', List.foldl_append, List.foldl_append,
      eq]
    refine ⟨text.extend line'.instruction?, place_withText size alike, ?_⟩
    show _ = ((((lines.take i).foldl place {}).place lines[i]).text).link labels
    rw [text_place]
    refine TextStore.link_extend_congr linked ?_
    intro room
    rw [size_foldl_place] at room ⊢
    rw [Nat.min_eq_right (by omega)]
    exact agree

theorem finish_withText (layout : Layout) (text : TextStore) :
    (layout.withText text).finish = layout.finish.withText text := rfl

/-- Stores that are linked to the same make the same program. -/
theorem link_withText {layout : Layout} {text : TextStore}
    (same : text.link layout.labels = layout.text.link layout.labels)
    (clean : layout.text.linkErrors layout.labels = #[]) :
    (layout.withText text).link = layout.link := by
  have clean' : text.linkErrors layout.labels = #[] := by
    rw [TextStore.linkErrors_eq_empty_iff] at clean ⊢
    rwa [same]
  unfold link withText
  dsimp only
  rw [same, clean, clean']

end Layout

namespace Program

open SourceLine (count resolveAt)

variable {lines : List SourceLine} {program : Program}

/-- The references of a program are linked where they stand. -/
theorem linkError?_of_line (h : ofLines lines = .ok program) {i : Nat} {line : SourceLine}
    {inst : Instruction} (found : lines[i]? = some line) (adds : line.instruction? = some inst)
    (room : count (lines.take i) .text < 256) :
    (inst.layAt (count (lines.take i) .text)).linkError? program.labels = none := by
  obtain ⟨-, clean, rfl⟩ := ofLines_eq_ok h
  have stored : (Layout.ofLines lines).text.get? (count (lines.take i) .text) =
      some (inst.layAt (count (lines.take i) .text)) := by
    rw [Layout.text_ofLines, TextStore.get?_foldl_push, List.getElem?_take_of_lt room,
      SourceLine.getElem?_instructions found adds]
    rfl
  exact TextStore.linkError?_of_get? clean stored

/-- Every reference of a placed instruction has a literal. -/
theorem exists_reference (h : ofLines lines = .ok program) {i : Nat} {line : SourceLine}
    {inst : Instruction} {name : String} (found : lines[i]? = some line)
    (adds : line.instruction? = some inst) (refers : inst.label? = some name)
    (room : count (lines.take i) .text < 256) :
    ∃ value, line.reference? program.labels (count (lines.take i) .text) = some value := by
  have laid : (inst.layAt (count (lines.take i) .text)).label? = some name := refers
  obtain ⟨value, linked, -⟩ := Instruction.link_of_label laid (linkError?_of_line h found adds room)
  exact ⟨_, SourceLine.reference?_of_label adds refers room linked⟩

/-- Whichever references are written as literals, the program is the same. -/
theorem ofLines_resolveAt (h : ofLines lines = .ok program) (chosen : Nat → Bool) :
    ofLines (resolveAt program.labels chosen lines) = .ok program := by
  obtain ⟨text, eq, linked⟩ := Layout.foldl_place_resolveAt chosen
    (fun i line inst => linkError?_of_line h) lines.length (Nat.le_refl _)
  have length : (resolveAt program.labels chosen lines).length = lines.length :=
    List.length_mapIdx
  rw [List.take_of_length_le (by omega), List.take_length] at eq
  rw [List.take_length] at linked
  have layout : Layout.ofLines (resolveAt program.labels chosen lines) =
      (Layout.ofLines lines).withText text := by
    unfold Layout.ofLines
    rw [eq, Layout.finish_withText]
  obtain ⟨-, clean, made⟩ := ofLines_eq_ok h
  have same : text.link (Layout.ofLines lines).labels =
      (Layout.ofLines lines).text.link (Layout.ofLines lines).labels := by
    rw [made] at linked
    exact linked
  rw [← h]
  unfold ofLines
  rw [layout, Layout.link_withText same clean]

/-- Every label reference of a placed instruction has a literal, and whichever of the references
are written as their literals, the lines assemble to the same program. -/
theorem literals_agree (h : ofLines lines = .ok program) :
    (∀ i line inst name, lines[i]? = some line → line.instruction? = some inst →
      inst.label? = some name → count (lines.take i) .text < 256 →
        ∃ value, line.reference? program.labels (count (lines.take i) .text) = some value) ∧
    ∀ chosen : Nat → Bool, ofLines (resolveAt program.labels chosen lines) = .ok program :=
  ⟨fun _ _ _ _ => exists_reference h, ofLines_resolveAt h⟩

/-- A load and a backward branch are written with literals, and a jump keeps its label. -/
theorem literals_agree_of_backward_branch :
    let source := "loop: lw r1, v\n beq r1, r0 , Loop # back\n j loop\nv: .word 7"
    let lines := SourceLine.ofSource source
    let chosen := fun i => decide (i < 2)
    ∃ program, ofLines lines = .ok program ∧
      (resolveAt program.labels chosen lines).map SourceLine.operands =
        ["r1, 67125248", "r1, r0 , -2", "loop", "7"] ∧
      ofLines (resolveAt program.labels chosen lines) = .ok program := by
  intro source lines chosen
  have texts : (ofLines lines).toOption.map
      (fun program => (resolveAt program.labels chosen lines).map SourceLine.operands) =
        some ["r1, 67125248", "r1, r0 , -2", "loop", "7"] := by
    decide +kernel
  cases h : ofLines lines with
  | error reasons =>
    rw [h] at texts
    contradiction
  | ok program =>
    rw [h] at texts
    exact ⟨program, rfl, Option.some.inj texts, (literals_agree h).2 chosen⟩

end Program

end TinyMips
