import TinyMips.Proofs.Assembly.Reference
import TinyMips.Proofs.Machine.Successor

/-!
# Executing label references

An operand that was written as a label makes the machine compute the address of that label,
whatever is in the registers and the data (`Program.step_uses_label`). The encoding that linking
chose for an opcode is undone by the stage that reads it:

* **jumps** — the branch unit scales the word address back (`Region.toBytes_ofBytes`);
* **branches** — it adds the scaled distance to the next instruction
  (`Instruction.add_branchOffset`);
* **accesses** — the operand stage scales the word address back, the base is `r0`, and the access
  completes on the slot of that address (`Machine.usesSlot_of_bare`).
-/

namespace TinyMips

namespace Fetched

variable {fetched : Fetched}

theorem target_of_branch (registers : RegisterFile) {rs rt : Reg} {imm : Word}
    (branches : fetched.instruction.opcode.format = .branch)
    (shape : fetched.instruction.operands = .immediate rs rt (.literal imm) .plain) :
    (fetched.executed registers).target = some (fetched.npc + imm.toBytes.toUInt64) := by
  obtain ⟨npc, ⟨op, operands, line, address, assembled⟩, implicit⟩ := fetched
  obtain rfl : operands = _ := shape
  replace branches : op.format = .branch := branches
  cases op <;> first | exact absurd branches (by decide) | rfl

theorem target_of_jump (registers : RegisterFile) {imm : Word}
    (jumps : fetched.instruction.opcode.format = .jump)
    (shape : fetched.instruction.operands = .jump (.literal imm)) :
    (fetched.executed registers).target = some imm.toBytes.toUInt64 := by
  obtain ⟨npc, ⟨op, operands, line, address, assembled⟩, implicit⟩ := fetched
  obtain rfl : operands = _ := shape
  rcases Opcode.format_eq_jump_iff.mp jumps with rfl | rfl
  · rfl
  · rfl

end Fetched

/-! ## Accesses -/

/-- Whether the step of a machine moves a value between the register of a load or a store and a
slot of the data, and goes on at the next instruction. -/
def Machine.UsesSlot (machine : Machine) (inst : Instruction) (slot : Nat) : Prop :=
  ∃ rs rt imm mode, inst.operands = .immediate rs rt imm mode ∧
    machine.step.2.architecture =
      let next := machine.architecture.goTo (inst.address + 4)
      if inst.opcode = .lw then next.assign rt (machine.data.get slot)
      else { next with data := machine.data.put slot (machine.registers.read rt) }

/-- Whether the step of a machine uses an address for the operand of the fetched instruction: a
jump goes on there, a branch does if its condition holds, and an access to data is made on the slot
of that address. -/
def Machine.Uses (machine : Machine) (fetched : Fetched) (target : Address) : Prop :=
  match fetched.instruction.opcode.format with
  | .jump =>
    (fetched.executed machine.registers).target = some target ∧ machine.step.2.pc = some target
  | .branch =>
    (fetched.executed machine.registers).target = some target ∧
      ∃ rs rt imm, fetched.instruction.operands = .immediate rs rt imm .plain ∧
        machine.step.2.pc =
          if fetched.instruction.opcode.condition (machine.registers.read rs).toInt
              (machine.registers.read rt).toInt then some target
          else some fetched.npc
  | .memory =>
    (fetched.executed machine.registers).result = target.toInt64 ∧
      Region.data.Supports target.toNat ∧
      machine.UsesSlot fetched.instruction (Region.data.indexOf target)
  | _ => False

namespace Machine

theorem read_zero_add (machine : Machine) (offset : Word) :
    machine.architecture.read .zero + offset = offset := by
  show machine.registers.read .zero + offset = offset
  rw [RegisterFile.read_zero, Int64.zero_add]

section Step

variable {machine : Machine} {inst : Instruction}
  {outcome : Except AddressError Architecture}
  (performed : machine.architecture.perform (inst.address + 4) inst.opcode inst.operands =
    some outcome)
  (settled : (machine.step.1, machine.step.2.architecture) =
    machine.architecture.settle (outcome.mapError (Fault.address .memoryAccess)))
include performed settled

/-- An access to the address of a bare operand completes on the slot of that address. -/
theorem usesSlot_of_bare (memory : inst.opcode.format = .memory) {rt : Reg} {value : Word}
    (operands : inst.operands = .immediate .zero rt (.literal value) .wordAddress)
    (supported : Region.data.Supports value.toBytes.toInt) :
    machine.step.1 = .ok () ∧
      machine.UsesSlot inst (Region.data.indexOf value.toBytes.toUInt64) := by
  have address : machine.architecture.read .zero + ImmediateMode.wordAddress.offset value =
      value.toBytes := machine.read_zero_add _
  generalize slot : Region.data.indexOf value.toBytes.toUInt64 = i
  rw [operands] at performed
  unfold UsesSlot
  rcases Opcode.format_eq_memory_iff.mp memory with op | op
  · rw [op] at performed
    obtain rfl := Option.some.inj performed
    rw [address, DataStore.load_of_supports _ _ supported, slot] at settled
    obtain ⟨succeeds, state⟩ := Prod.mk.inj settled
    refine ⟨succeeds, _, rt, _, _, operands, ?_⟩
    rw [state, op]
    rfl
  · rw [op] at performed
    obtain rfl := Option.some.inj performed
    rw [address, DataStore.store_of_supports _ _ _ supported, slot] at settled
    obtain ⟨succeeds, state⟩ := Prod.mk.inj settled
    refine ⟨succeeds, _, rt, _, _, operands, ?_⟩
    rw [state, op]
    rfl

/-- A machine at an instruction that refers to an address completes it with that address. -/
theorem uses_of_refersTo {target : Address} (own : Region.text.Supports inst.address.toNat)
    (refersTo : inst.RefersTo target) (stepped : machine.StepsAt inst.address inst) :
    machine.step.1 = .ok () ∧
      machine.Uses { npc := inst.address + 4, instruction := inst, implicit := false } target := by
  unfold Uses
  dsimp only
  cases refersTo with
  | access rt format operands supported =>
    rw [format]
    have reached : (Word.ofBytes target.toInt64).toBytes = target.toInt64 :=
      Region.toBytes_ofBytes supported
    have address : machine.architecture.read .zero +
        ImmediateMode.wordAddress.offset (Word.ofBytes target.toInt64) = target.toInt64 :=
      (machine.read_zero_add _).trans reached
    have result : (Fetched.executed
        { npc := inst.address + 4, instruction := inst, implicit := false }
        machine.registers).result = target.toInt64 :=
      (Architecture.result_of_memory machine.architecture format operands).trans address
    have valid : Region.data.Supports (Word.ofBytes target.toInt64).toBytes.toInt := by
      rw [reached, Region.toInt_toInt64 supported]
      exact supported
    obtain ⟨succeeds, uses⟩ := usesSlot_of_bare performed settled format operands valid
    rw [reached, UInt64.toUInt64_toInt64] at uses
    exact ⟨succeeds, result, supported, uses⟩
  | branch rs rt format operands supported =>
    obtain ⟨succeeds, goesOn⟩ := stepped.completes_of_not_memory (by rw [format]; decide)
    rw [format]
    have reached := Instruction.add_branchOffset own supported
    rw [operands, Architecture.successor_plain, reached] at goesOn
    refine ⟨succeeds, ?_, rs, rt, _, operands, goesOn⟩
    rw [Fetched.target_of_branch machine.registers format operands, reached]
  | jump format operands supported =>
    obtain ⟨succeeds, goesOn⟩ := stepped.completes_of_not_memory (by rw [format]; decide)
    rw [format]
    have reached : (Word.ofBytes target.toInt64).toBytes.toUInt64 = target := by
      rw [Region.toBytes_ofBytes supported, UInt64.toUInt64_toInt64]
    rw [operands] at goesOn
    refine ⟨succeeds, ?_, ?_⟩
    · rw [Fetched.target_of_jump machine.registers format operands, reached]
    · rw [goesOn]
      exact congrArg some reached

end Step

end Machine

namespace Program

variable {source : String} {program : Program} {index : Nat} {inst written : Instruction}
  {machine : Machine}

theorem check_of_get? (h : ofSource source = .ok program)
    (found : program.text.get? index = some inst) :
    Region.text.check inst.address = .ok index := by
  rw [address_of_get? h found]
  exact Region.check_addressOf .text (TextStore.lt_of_get? found)

/-- A machine at an instruction of its program fetches and executes it. -/
theorem stepsAt_of_get? (h : ofSource source = .ok program)
    (found : program.text.get? index = some inst) (text : machine.text = program.text)
    (pc : machine.pc = some inst.address) :
    Stage.fetchAt machine.text inst.address =
        .ok { npc := inst.address + 4, instruction := inst, implicit := false } ∧
      machine.StepsAt inst.address inst := by
  have supported := check_of_get? h found
  have ready := ready_of_get? h found
  obtain ⟨accepted, unlabelled⟩ := accepted_of_get? h found
  have linked := accepted.fits.linked unlabelled
  rw [← text] at found
  exact ⟨Machine.fetchAt_of_ready supported found ready,
    Machine.stepsAt_of_linked pc supported found ready linked⟩

/-- A machine at an instruction of its program does what the instruction means. -/
theorem performs_of_get? (h : ofSource source = .ok program)
    (found : program.text.get? index = some inst) (text : machine.text = program.text)
    (here : machine.pc = some inst.address) :
    ∃ outcome,
      machine.architecture.perform (inst.address + 4) inst.opcode inst.operands = some outcome ∧
        (machine.step.1, machine.step.2.architecture) =
          machine.architecture.settle (outcome.mapError (Fault.address .memoryAccess)) := by
  obtain ⟨accepted, unlabelled⟩ := accepted_of_get? h found
  have placed : machine.text.get? index = some inst := by
    rw [text]
    exact found
  exact Machine.step_of_linked here (check_of_get? h found) placed (ready_of_get? h found)
    (accepted.fits.linked unlabelled)

/-- Wherever the source of a program has a label for an operand, the label is defined, and a
machine at that instruction completes it with the address of the label, which the report of its
execution shows. -/
theorem step_uses_label (h : ofSource source = .ok program)
    (found : program.text.get? index = some inst) {line : SourceLine}
    (mem : line ∈ SourceLine.ofSource source) (origin : inst.line = some line.number)
    (wrote : line.instruction? = some written) {name : String}
    (refers : written.operands.label? = some name) :
    ∃ target, program.labels.get? name = some target ∧
      ∀ machine : Machine, machine.text = program.text → machine.pc = some inst.address →
        ∃ fetched, Stage.fetchAt machine.text inst.address = .ok fetched ∧
          fetched.instruction = inst ∧
          machine.step.1 = .ok () ∧
          machine.Uses fetched target ∧
          (machine.tracing = true →
            { step := machine.steps + 1, pc := inst.address
              report := .execute (fetched.executed machine.registers) } ∈
              machine.step.2.trace) := by
  obtain ⟨target, defined, refersTo⟩ :=
    refersTo_of_placed h found
      (placed_of_line (SourceLine.pairwise_ofSource source) h found mem origin wrote) refers
  refine ⟨target, defined, fun machine text pc => ?_⟩
  obtain ⟨fetch, stepped⟩ := stepsAt_of_get? h found text pc
  have own := ((Region.check_eq_ok_iff _ _ _).mp (check_of_get? h found)).1
  obtain ⟨outcome, performed, settled⟩ := performs_of_get? h found text pc
  obtain ⟨succeeds, uses⟩ := Machine.uses_of_refersTo performed settled own refersTo stepped
  exact ⟨_, fetch, rfl, succeeds, uses, fun tracing => Machine.execute_mem_trace tracing pc fetch⟩

/-- A jump to a label that is defined after it. -/
theorem step_uses_label_of_forward_jump :
    let source := "j last\nnop\nlast: exit"
    ∃ program, ofSource source = .ok program ∧
      program.labels.get? "last" = some 0x00400008 ∧
      (Machine.load program true).step.1 = .ok () ∧
      (Machine.load program true).step.2.pc = some 0x00400008 := by
  intro source
  let inst : Instruction :=
    { opcode := .j, operands := .jump (.literal 0x00100002), line := some 1
      address := 0x00400000, assembled := true }
  let line : SourceLine := { number := 1, keyword := "j", operands := "last" }
  have parts : (ofSource source).toOption.map
      (fun program => (program.text.get? 0, program.labels.get? "last")) =
        some (some inst, some 0x00400008) := by decide +kernel
  cases h : ofSource source with
  | error reasons =>
    rw [h] at parts
    contradiction
  | ok program =>
    rw [h] at parts
    obtain ⟨found, label⟩ := Prod.mk.inj (Option.some.inj parts)
    have mem : line ∈ SourceLine.ofSource source := by decide +kernel
    have wrote : line.instruction? =
        some { opcode := .j, operands := .jump (.label "last"), line := some 1 } := by
      decide +kernel
    obtain ⟨target, defined, steps⟩ := step_uses_label h found mem rfl wrote rfl
    obtain rfl := Option.some.inj (defined.symm.trans label)
    obtain ⟨fetched, -, same, succeeds, uses, -⟩ := steps (Machine.load program true) rfl rfl
    unfold Machine.Uses at uses
    rw [same] at uses
    exact ⟨program, rfl, label, succeeds, uses.2⟩

end Program

end TinyMips
