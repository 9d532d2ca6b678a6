import TinyMips.Proofs.Machine.Reference
import TinyMips.Proofs.Machine.Run

/-!
# Control flow of programs

Where the program counter of an assembled program can get to, and what that means for its faults:

* **one step** — a machine in reach of its program stays in reach (`Program.InReach.step`), and its
  step fails in an access to data or below the instructions (`Program.InReach.fault`);
* **runs** — only a taken branch with a literal offset leads below the instructions
  (`Program.exists_taken_of_below`), and where labels are used instead, every address is that of an
  instruction or the one after the last (`Program.AtInstruction.step`).
-/

namespace TinyMips

/-! ## Where one instruction leads -/

/-- Whether an address is aligned and no further from the instructions than a branch leads. -/
def Address.NearText (address : Address) : Prop :=
  address.toNat % 4 = 0 ∧ 0x003E0004 ≤ address.toNat ∧ address.toNat < 0x00500000

theorem Region.Supports.nearText {address : Address} (h : text.Supports address.toNat) :
    address.NearText := by
  rw [supports_text_iff] at h
  unfold Address.NearText
  omega

theorem Address.nearText_addressOf {index : Nat} (h : index ≤ 256) :
    (Region.text.addressOf index).NearText := by
  unfold Address.NearText
  rw [Region.toNat_addressOf_text (by omega)]
  omega

/-- A jump target that is in bounds is a supported address. -/
theorem Word.supports_toUInt64 {value : Word} (h : Region.text.Supports value.toInt) :
    Region.text.Supports value.toUInt64.toNat := by
  have range := (Region.supports_text_iff _).mp h
  rw [Word.toNat_toUInt64 (by omega)]
  exact h

section Leads

variable {inst : Instruction} {index : Nat} {state : Architecture} {next : Address}
  (lt : index < 256) (address : inst.address = Region.text.addressOf index)
  (accepted : inst.operands.Accepted inst.opcode)
  (leads : state.Leads (inst.address + 4) inst.opcode inst.operands next)
include lt address

theorem Instruction.toNat_address_add_four : (inst.address + 4).toNat = 0x00400004 + 4 * index := by
  rw [address, Region.addressOf_add_four lt, Region.toNat_addressOf_text (by omega)]
  omega

theorem Instruction.toNat_branch_target {imm : Word} (fits : imm.fits16 = true) :
    ((inst.address + 4 + imm.toBytes.toUInt64).toNat : Int) =
      0x00400004 + 4 * index + 4 * imm.toInt := by
  have range := Word.fits16_iff.mp fits
  have bytes : imm.toBytes.toInt = 4 * imm.toInt := Word.toInt_toBytes (by omega) (by omega)
  have own := toNat_address_add_four lt address
  rw [Address.toNat_add_toUInt64 (by omega) (by omega), own, bytes]
  omega

include accepted leads

/-- An accepted instruction leads to an address at or above the first instruction, or it is a
branch that is taken. -/
theorem Instruction.above_or_taken_of_leads :
    (next.NearText ∧ 0x00400000 ≤ next.toNat) ∨
      ∃ rs rt imm, inst.opcode.format = .branch ∧
        inst.operands = .immediate rs rt (.literal imm) .plain ∧ imm.fits16 = true ∧
        inst.opcode.condition (state.read rs).toInt (state.read rt).toInt = true ∧
        next = inst.address + 4 + imm.toBytes.toUInt64 := by
  cases leads with
  | sequential eq =>
    have value := toNat_address_add_four lt address
    rw [← eq] at value
    refine .inl ⟨?_, by omega⟩
    unfold Address.NearText
    omega
  | branch rs rt imm format shape taken eq =>
    rw [shape] at accepted
    have fits : imm.fits16 = true := by
      cases accepted with
      | arithmetic _ _ _ _ fits | offset _ _ _ _ fits | distance _ _ _ _ fits => exact fits
    exact .inr ⟨rs, rt, imm, format, shape, fits, taken, eq⟩
  | jump target format shape eq =>
    rw [shape] at accepted
    cases accepted with
    | target _ _ low high supported =>
      have reached := Word.supports_toUInt64 supported
      have range := (Region.supports_text_iff _).mp reached
      rw [eq]
      exact .inl ⟨reached.nearText, by omega⟩

/-- Whatever an accepted instruction leads to is near the instructions. -/
theorem Instruction.nearText_of_leads : next.NearText := by
  rcases above_or_taken_of_leads lt address accepted leads with
    ⟨near, -⟩ | ⟨rs, rt, imm, -, -, fits, -, eq⟩
  · exact near
  · have value := toNat_branch_target lt address fits
    have range := Word.fits16_iff.mp fits
    rw [← eq] at value
    unfold Address.NearText
    omega

end Leads

/-- An instruction that refers to an address leads there or to the instruction after it. -/
theorem Instruction.eq_target_of_leads {inst : Instruction} {target next : Address}
    {state : Architecture} (own : Region.text.Supports inst.address.toNat)
    (refersTo : inst.RefersTo target)
    (leads : state.Leads (inst.address + 4) inst.opcode inst.operands next) :
    next = inst.address + 4 ∨ next = target ∧ Region.text.Supports target.toNat := by
  cases leads with
  | sequential eq => exact .inl eq
  | branch rs rt imm format shape taken eq =>
    refine .inr ?_
    cases refersTo with
    | access _ other | jump other => rw [other] at format; contradiction
    | branch _ _ _ operands supported =>
      rw [shape] at operands
      obtain ⟨-, -, encoded, -⟩ := Operands.immediate.inj operands
      rw [eq, Immediate.literal.inj encoded]
      exact ⟨add_branchOffset own supported, supported⟩
  | jump imm format shape eq =>
    refine .inr ?_
    cases refersTo with
    | access _ other | branch _ _ other => rw [other] at format; contradiction
    | jump _ operands supported =>
      rw [shape] at operands
      have encoded := Immediate.literal.inj (Operands.jump.inj operands)
      rw [eq, encoded, Region.toBytes_ofBytes supported, UInt64.toUInt64_toInt64]
      exact ⟨rfl, supported⟩

/-! ## One step -/

/-- Where a machine stands that runs a program. -/
inductive Program.Position (program : Program) (machine : Machine) : Prop where
  | halted (pc : machine.pc = none)
  | below (pc : Address) (here : machine.pc = some pc) (low : pc.toNat < 0x00400000)
  | past (pc : Address) (index : Nat) (here : machine.pc = some pc)
    (supported : Region.text.check pc = .ok index) (empty : machine.text.get? index = none)
  | placed (index : Nat) (inst : Instruction) (found : program.text.get? index = some inst)
    (here : machine.pc = some inst.address)

/-- Whether a machine runs a program and is near its instructions. -/
structure Program.InReach (program : Program) (machine : Machine) : Prop where
  text : machine.text = program.text
  near : ∀ pc, machine.pc = some pc → pc.NearText

namespace Program

variable {source : String} {program : Program} {machine : Machine}

theorem inReach_load (program : Program) (tracing : Bool) :
    program.InReach (.load program tracing) where
  text := rfl
  near pc here := by
    obtain rfl := Option.some.inj here
    exact Address.nearText_addressOf (by omega)

theorem InReach.position (reach : program.InReach machine) (h : ofSource source = .ok program) :
    program.Position machine := by
  cases here : machine.pc with
  | none => exact .halted here
  | some pc =>
    obtain ⟨aligned, -, high⟩ := reach.near pc here
    by_cases low : pc.toNat < 0x00400000
    · exact .below pc here low
    · have supports : Region.text.Supports pc.toNat := by
        rw [Region.supports_text_iff]
        omega
      have supported := Region.check_of_supports supports
      generalize index : Region.text.indexOf pc = i at supported
      cases found : machine.text.get? i with
      | none => exact .past pc i here supported found
      | some inst =>
        rw [reach.text] at found
        refine .placed i inst found ?_
        rw [here, address_of_get? h found, ← index, Region.addressOf_indexOf supports]

/-- A step below the instructions is refused and leaves the machine there. -/
theorem step_of_below {pc : Address} (here : machine.pc = some pc) (low : pc.toNat < 0x00400000) :
    machine.step.1 = .error (.address .fetch (.outOfRange .text pc.toInt64)) ∧
      machine.step.2.pc = some pc := by
  have refused := Region.check_of_lt_base (show pc.toNat < Region.text.base from low)
  rw [Machine.step_of_fetch_error here (Machine.fetchAt_of_check_error refused)]
  exact ⟨rfl, here⟩

theorem step_of_past {pc : Address} {index : Nat} (here : machine.pc = some pc)
    (supported : Region.text.check pc = .ok index) (empty : machine.text.get? index = none) :
    machine.step.1 = .ok () ∧ machine.step.2.pc = none := by
  obtain ⟨succeeds, state⟩ := Prod.mk.inj (Machine.step_of_empty here supported empty)
  exact ⟨succeeds, congrArg Architecture.pc state⟩

section Placed

variable {index : Nat} {inst : Instruction} {next : Address} (h : ofSource source = .ok program)
  (found : program.text.get? index = some inst) (text : machine.text = program.text)
  (here : machine.pc = some inst.address)
include h found text here

/-- A step at an instruction stays there or goes where the instruction leads. -/
theorem next_of_placed (moved : machine.step.2.pc = some next) :
    next = inst.address ∨
      machine.architecture.Leads (inst.address + 4) inst.opcode inst.operands next := by
  obtain ⟨accepted, unlabelled⟩ := accepted_of_get? h found
  cases (stepsAt_of_get? h found text here).2 with
  | completes succeeds goesOn =>
    rw [goesOn] at moved
    exact .inr (Architecture.leads_of_successor _ (accepted.fits.linked unlabelled) moved)
  | faults error fails stays =>
    rw [stays] at moved
    exact .inl (Option.some.inj moved).symm

end Placed

/-- A step keeps a machine in reach of its program. -/
theorem InReach.step (reach : program.InReach machine) (h : ofSource source = .ok program) :
    program.InReach machine.step.2 where
  text := (Machine.text_step machine).trans reach.text
  near next moved := by
    cases reach.position h with
    | halted pc =>
      rw [Machine.step_of_halted pc, pc] at moved
      cases moved
    | below pc here low =>
      rw [(step_of_below here low).2] at moved
      exact reach.near next (here.trans moved)
    | past pc index here supported empty =>
      rw [(step_of_past here supported empty).2] at moved
      cases moved
    | placed index inst found here =>
      rcases next_of_placed h found reach.text here moved with rfl | leads
      · exact reach.near _ here
      · exact Instruction.nearText_of_leads (TextStore.lt_of_get? found) (address_of_get? h found)
          (accepted_of_get? h found).1 leads

/-- A step fails in an access to data or below the instructions. -/
theorem InReach.fault (reach : program.InReach machine) (h : ofSource source = .ok program)
    {fault : Fault} (failed : machine.step.1 = .error fault) :
    (∃ error, fault = .address .memoryAccess error) ∨
      ∃ pc, machine.pc = some pc ∧ pc.toNat < 0x00400000 ∧
        fault = .address .fetch (.outOfRange .text pc.toInt64) := by
  cases reach.position h with
  | halted pc =>
    rw [Machine.step_of_halted pc] at failed
    cases failed
  | below pc here low =>
    rw [(step_of_below here low).1] at failed
    exact .inr ⟨pc, here, low, (Except.error.inj failed).symm⟩
  | past pc index here supported empty =>
    rw [(step_of_past here supported empty).1] at failed
    cases failed
  | placed index inst found here =>
    cases (stepsAt_of_get? h found reach.text here).2 with
    | completes succeeds goesOn =>
      rw [succeeds] at failed
      cases failed
    | faults error fails stays =>
      rw [fails] at failed
      exact .inl ⟨error, (Except.error.inj failed).symm⟩

end Program

/-! ## Branches with a literal offset -/

/-- Whether a machine is at a branch that was written with a literal offset, and takes it to an
address. -/
inductive Machine.TakesLiteral (machine : Machine) (lines : List SourceLine) (target : Address) :
    Prop where
  | intro (index : Nat) (inst written : Instruction) (rs rt : Reg) (offset : Word)
    (here : machine.pc = some inst.address) (found : machine.text.get? index = some inst)
    (placed : (SourceLine.placed lines)[index]? = some written)
    (format : written.opcode.format = .branch)
    (operands : written.operands = .immediate rs rt (.literal offset) .plain)
    (taken : written.opcode.condition (machine.registers.read rs).toInt
      (machine.registers.read rt).toInt = true)
    (leads : target = inst.address + 4 + offset.toBytes.toUInt64)

namespace Program

variable {source : String} {program : Program} {machine : Machine} {index : Nat}
  {inst : Instruction} {next : Address}

/-- Only a branch that was written with a literal offset leads below the instructions. -/
theorem takesLiteral_of_leads (h : ofSource source = .ok program)
    (found : program.text.get? index = some inst) (text : machine.text = program.text)
    (here : machine.pc = some inst.address)
    (leads : machine.architecture.Leads (inst.address + 4) inst.opcode inst.operands next)
    (below : next.toNat < 0x00400000) :
    machine.TakesLiteral (SourceLine.ofSource source) next := by
  have lt := TextStore.lt_of_get? found
  have address := address_of_get? h found
  rcases Instruction.above_or_taken_of_leads lt address (accepted_of_get? h found).1 leads with
    ⟨-, above⟩ | ⟨rs, rt, imm, format, shape, -, taken, eq⟩
  · omega
  · obtain ⟨written, placed, -, made⟩ := written_of_get? h found
    cases label : written.operands.label? with
    | some name =>
      -- a label leads back to an instruction
      obtain ⟨target, -, refersTo⟩ := refersTo_of_placed h found placed label
      have own := ((Region.check_eq_ok_iff _ _ _).mp (check_of_get? h found)).1
      rcases Instruction.eq_target_of_leads own refersTo leads with eq | ⟨rfl, supported⟩
      · have value := Instruction.toNat_address_add_four lt address
        rw [← eq] at value
        omega
      · have range := (Region.supports_text_iff _).mp supported
        omega
    | none =>
      have kept : inst.operands = written.operands := by
        rw [made, Instruction.operands_assembleAt_of_unlabelled _ _ _ label]
      have opcode : inst.opcode = written.opcode := by
        rw [made, Instruction.opcode_assembleAt]
      rw [opcode] at format taken
      rw [kept] at shape
      rw [← text] at found
      exact .intro index inst written rs rt imm here found placed format shape taken eq

theorem inReach_after (h : ofSource source = .ok program) (tracing : Bool) (count : Nat) :
    program.InReach ((Machine.load program tracing).after count) :=
  Machine.after_induction (inReach_load program tracing) (fun _ reach => reach.step h) count

/-- A run is below the instructions only after it took a branch with a literal offset, and then it
stays there. -/
theorem exists_taken_of_below (h : ofSource source = .ok program) (tracing : Bool) (count : Nat)
    {pc : Address} (here : ((Machine.load program tracing).after count).pc = some pc)
    (below : pc.toNat < 0x00400000) :
    ∃ k < count, ((Machine.load program tracing).after k).TakesLiteral
        (SourceLine.ofSource source) pc ∧
      ∀ j, k < j → j ≤ count → ((Machine.load program tracing).after j).pc = some pc := by
  induction count with
  | zero =>
    obtain rfl := Option.some.inj here
    have start := Region.toNat_addressOf .text (show 0 < 2 ^ 32 by omega)
    simp only [Region.base] at start
    omega
  | succ count ih =>
    -- the last step either was refused below already, or came from the branch that is looked for
    have reach := inReach_after h tracing count
    have moved : ((Machine.load program tracing).after count).step.2.pc = some pc := here
    cases reach.position h with
    | halted halted =>
      rw [Machine.step_of_halted halted, halted] at moved
      cases moved
    | below before stood low =>
      rw [(step_of_below stood low).2] at moved
      obtain rfl := Option.some.inj moved
      obtain ⟨k, lt, takes, stays⟩ := ih stood
      refine ⟨k, by omega, takes, fun j after before => ?_⟩
      by_cases last : j ≤ count
      · exact stays j after last
      · obtain rfl : j = count + 1 := by omega
        exact here
    | past before index stood supported empty =>
      rw [(step_of_past stood supported empty).2] at moved
      cases moved
    | placed index inst found stood =>
      rcases next_of_placed h found reach.text stood moved with rfl | leads
      · have own := ((Region.check_eq_ok_iff _ _ _).mp (check_of_get? h found)).1
        have range := (Region.supports_text_iff _).mp own
        omega
      · refine ⟨count, by omega, takesLiteral_of_leads h found reach.text stood leads below, ?_⟩
        intro j after before
        obtain rfl : j = count + 1 := by omega
        exact here

end Program

/-! ## Labels instead of literals -/

/-- Whether every placed instruction of a format was written with a label. -/
def SourceLine.NamesLabels (lines : List SourceLine) (format : OperandFormat) : Prop :=
  ∀ written ∈ placed lines, written.opcode.format = format →
    ∃ name, written.operands.label? = some name

/-- Whether a machine has halted or stands at an instruction or right after the last one. -/
def Program.AtInstruction (program : Program) (machine : Machine) : Prop :=
  machine.pc = none ∨
    ∃ index ≤ program.text.size, machine.pc = some (Region.text.addressOf index)

namespace Program

variable {source : String} {program : Program} {machine : Machine} {index : Nat}
  {inst : Instruction} {next : Address}

/-- A placed item at an instruction address is an instruction. -/
theorem index_of_isPlaced {text : TextStore} {data : DataStore} {target : Address}
    (placed : Layout.IsPlaced text data target) (dense : data.Dense)
    (supported : Region.text.Supports target.toNat) :
    ∃ index < text.size, target = Region.text.addressOf index := by
  rcases placed with inText | ⟨index, lt, rfl⟩
  · exact inText
  · have bound := dense.placed_le
    have range := (Region.supports_text_iff _).mp supported
    rw [Region.toNat_addressOf .data (by omega)] at range
    simp only [Region.base] at range
    omega

/-- A label leads to an instruction, and the next instruction is one or the end. -/
theorem index_of_leads (h : ofSource source = .ok program)
    (found : program.text.get? index = some inst)
    (branches : SourceLine.NamesLabels (SourceLine.ofSource source) .branch)
    (jumps : SourceLine.NamesLabels (SourceLine.ofSource source) .jump)
    (leads : machine.architecture.Leads (inst.address + 4) inst.opcode inst.operands next) :
    ∃ i ≤ program.text.size, next = Region.text.addressOf i := by
  have lt := TextStore.lt_size_of_get? found
  have after : ∃ i ≤ program.text.size, inst.address + 4 = Region.text.addressOf i := by
    refine ⟨index + 1, lt, ?_⟩
    rw [address_of_get? h found, Region.addressOf_add_four (TextStore.lt_of_get? found)]
  obtain ⟨written, placed, -, made⟩ := written_of_get? h found
  have mem := List.mem_of_getElem? placed
  have opcode : inst.opcode = written.opcode := by
    rw [made, Instruction.opcode_assembleAt]
  -- away from the next instruction there is a label, whose address is an instruction's
  have labelled {name : String} (label : written.operands.label? = some name) :
      ∃ i ≤ program.text.size, next = Region.text.addressOf i := by
    obtain ⟨target, defined, refersTo⟩ := refersTo_of_placed h found placed label
    have own := ((Region.check_eq_ok_iff _ _ _).mp (check_of_get? h found)).1
    rcases Instruction.eq_target_of_leads own refersTo leads with rfl | ⟨rfl, supported⟩
    · exact after
    · have wellFormed := wellFormed_of_ofLines (SourceLine.pairwise_ofSource source) h
      have item := (wellFormed.labels _ (LabelTable.get?_eq_some_iff.mp defined)).2
      obtain ⟨i, below, eq⟩ := index_of_isPlaced item wellFormed.data supported
      exact ⟨i, Nat.le_of_lt below, eq⟩
  cases leads with
  | sequential eq =>
    rw [eq]
    exact after
  | branch _ _ _ format =>
    rw [opcode] at format
    obtain ⟨name, label⟩ := branches written mem format
    exact labelled label
  | jump _ format =>
    rw [opcode] at format
    obtain ⟨name, label⟩ := jumps written mem format
    exact labelled label

/-- Where branches name labels, steps fail in accesses to data only. -/
theorem access_of_labelled (h : ofSource source = .ok program)
    (branches : SourceLine.NamesLabels (SourceLine.ofSource source) .branch) (tracing : Bool)
    (count : Nat) {fault : Fault}
    (failed : ((Machine.load program tracing).after count).step.1 = .error fault) :
    ∃ error, fault = .address .memoryAccess error := by
  rcases (inReach_after h tracing count).fault h failed with access | ⟨pc, here, below, -⟩
  · exact access
  -- below the instructions there was a branch with a literal, which has no label
  · obtain ⟨k, -, takes, -⟩ := exists_taken_of_below h tracing count here below
    obtain ⟨index, inst, written, rs, rt, offset, -, -, placed, format, operands⟩ := takes
    obtain ⟨name, label⟩ := branches written (List.mem_of_getElem? placed) format
    rw [operands] at label
    cases label

theorem AtInstruction.step (h : ofSource source = .ok program)
    (branches : SourceLine.NamesLabels (SourceLine.ofSource source) .branch)
    (jumps : SourceLine.NamesLabels (SourceLine.ofSource source) .jump)
    (reach : program.InReach machine) (stands : program.AtInstruction machine) :
    program.AtInstruction machine.step.2 := by
  cases reach.position h with
  | halted pc =>
    rw [Machine.step_of_halted pc]
    exact stands
  | below pc here low =>
    unfold AtInstruction
    rw [(step_of_below here low).2, ← here]
    exact stands
  | past pc index here supported empty => exact .inl (step_of_past here supported empty).2
  | placed index inst found here =>
    cases moved : machine.step.2.pc with
    | none => exact .inl moved
    | some next =>
      rcases next_of_placed h found reach.text here moved with rfl | leads
      · refine .inr ⟨index, Nat.le_of_lt (TextStore.lt_size_of_get? found), ?_⟩
        rw [moved, address_of_get? h found]
      · obtain ⟨i, le, eq⟩ := index_of_leads h found branches jumps leads
        exact .inr ⟨i, le, moved.trans (congrArg some eq)⟩

theorem atInstruction_after (h : ofSource source = .ok program)
    (branches : SourceLine.NamesLabels (SourceLine.ofSource source) .branch)
    (jumps : SourceLine.NamesLabels (SourceLine.ofSource source) .jump) (tracing : Bool)
    (count : Nat) : program.AtInstruction ((Machine.load program tracing).after count) := by
  induction count with
  | zero => exact .inr ⟨0, Nat.zero_le _, rfl⟩
  | succ count ih => exact ih.step h branches jumps (inReach_after h tracing count)

/-! ## Safety -/

/-- However far a program runs, its program counter is near the instructions, and its steps fail in
accesses to data or below the instructions, where only a branch with a literal offset leads. With
labels for branches no run ends in a fetch fault, and with labels for jumps as well the program
counter stays at instructions or right after the last one. -/
theorem control_flow_safe (h : ofSource source = .ok program) (tracing : Bool) (count : Nat) :
    let lines := SourceLine.ofSource source
    let start := Machine.load program tracing
    let machine := start.after count
    (∀ pc, machine.pc = some pc → pc.NearText) ∧
      (∀ fault, machine.step.1 = .error fault →
        (∃ error, fault = .address .memoryAccess error) ∨
          ∃ pc, machine.pc = some pc ∧ pc.toNat < 0x00400000 ∧
            fault = .address .fetch (.outOfRange .text pc.toInt64) ∧
            ∃ k < count, (start.after k).TakesLiteral lines pc ∧
              ∀ j, k < j → j ≤ count → (start.after j).pc = some pc) ∧
      (SourceLine.NamesLabels lines .branch →
        (∀ fault, machine.step.1 = .error fault →
          ∃ error, fault = .address .memoryAccess error) ∧
        ∀ limit fault, (Simulation.load program tracing limit).run.1 = .error fault →
          (∃ error, fault = .address .memoryAccess error) ∨ fault = .stepLimit limit) ∧
      (SourceLine.NamesLabels lines .branch → SourceLine.NamesLabels lines .jump →
        machine.pc = none ∨
          (∃ index inst, program.text.get? index = some inst ∧ machine.pc = some inst.address) ∨
          machine.pc = some program.text.nextAddress) := by
  intro lines start machine
  refine ⟨(inReach_after h tracing count).near, ?_, ?_, ?_⟩
  · intro fault failed
    rcases (inReach_after h tracing count).fault h failed with access | ⟨pc, here, below, eq⟩
    · exact .inl access
    · exact .inr ⟨pc, here, below, eq, exists_taken_of_below h tracing count here below⟩
  · intro branches
    refine ⟨fun fault => access_of_labelled h branches tracing count, fun limit fault failed => ?_⟩
    rcases Simulation.runFor_error failed with limited | ⟨count, failed⟩
    · exact .inr limited
    · exact .inl (access_of_labelled h branches tracing count failed)
  · intro branches jumps
    rcases atInstruction_after h branches jumps tracing count with halted | ⟨index, le, here⟩
    · exact .inl halted
    · rcases Nat.lt_or_eq_of_le le with lt | rfl
      · have found : program.text.get? index = some program.text.instructions[index] :=
          Array.getElem?_eq_getElem lt
        rw [← address_of_get? h found] at here
        exact .inr (.inl ⟨index, _, found, here⟩)
      · exact .inr (.inr here)

/-- The furthest branch with a literal offset leads to the lowest address and a fault, and a loop
with labels stays at its instructions. -/
theorem control_flow_safe_of_branches :
    let back := "beq r0, r0, -32768"
    let loop := "top: beq r0, r0, next\nnext: j top"
    (∃ program, ofSource back = .ok program ∧
      ((Machine.load program true).after 1).pc = some 0x003E0004 ∧
      (Machine.load program true).TakesLiteral (SourceLine.ofSource back) 0x003E0004) ∧
    ∃ program, ofSource loop = .ok program ∧
      ∃ index inst, program.text.get? index = some inst ∧
        ((Machine.load program true).after 5).pc = some inst.address := by
  intro back loop
  constructor
  · have parts : (ofSource back).toOption.map
        (fun program =>
          let machine := (Machine.load program true).after 1
          (machine.pc, machine.step.1)) =
          some (some 0x003E0004,
            .error (.address .fetch (.outOfRange .text 0x003E0004))) := by decide +kernel
    cases h : ofSource back with
    | error reasons =>
      rw [h] at parts
      cases parts
    | ok program =>
      rw [h] at parts
      obtain ⟨here, failed⟩ := Prod.mk.inj (Option.some.inj parts)
      obtain ⟨-, faults, -⟩ := control_flow_safe h true 1
      rcases faults _ failed with ⟨error, access⟩ | ⟨pc, stands, -, -, k, lt, takes, -⟩
      · cases access
      · obtain rfl := Option.some.inj (here.symm.trans stands)
        obtain rfl : k = 0 := by omega
        exact ⟨program, rfl, here, takes⟩
  · have named : ∀ written ∈ SourceLine.placed (SourceLine.ofSource loop),
        written.operands.label?.isSome = true := by decide +kernel
    have labels (format : OperandFormat) :
        SourceLine.NamesLabels (SourceLine.ofSource loop) format :=
      fun written mem _ => Option.isSome_iff_exists.mp (named written mem)
    have parts : (ofSource loop).toOption.map
        (fun program => (((Machine.load program true).after 5).pc, program.text.nextAddress)) =
          some (some 0x00400004, 0x00400008) := by decide +kernel
    cases h : ofSource loop with
    | error reasons =>
      rw [h] at parts
      cases parts
    | ok program =>
      rw [h] at parts
      obtain ⟨here, last⟩ := Prod.mk.inj (Option.some.inj parts)
      obtain ⟨-, -, -, stays⟩ := control_flow_safe h true 5
      rcases stays (labels .branch) (labels .jump) with halted | inside | after
      · rw [here] at halted
        cases halted
      · exact ⟨program, rfl, inside⟩
      · rw [here, last] at after
        exact absurd (Option.some.inj after) (by decide)

end Program

end TinyMips
