import TinyMips.Proofs.Assembly.Addressing
import TinyMips.Proofs.Machine.Atomicity
import TinyMips.Proofs.Machine.ControlFlow

/-!
# Accesses to data

Whether a load or a store can fault is decided by how its operand is written:

* **bare** — a label or a literal address is a supported one, so the access completes on its slot of
  the store (`Machine.usesSlot_of_bare`);
* **zero-based** — 16 bits reach no data from `r0`, so the access always faults
  (`Machine.faults_of_zeroBased`);
* **runs** — a machine in reach of its program faults in an access only where the operand names a
  base (`Program.based_of_fault`).
-/

namespace TinyMips

/-! ## Addresses -/

namespace Region

/-- The slot of a supported data address is one of the store. -/
theorem indexOf_lt_of_supports {address : Word} (h : data.Supports address.toInt) :
    data.indexOf address.toUInt64 < 256 := by
  have value : (address.toUInt64.toNat : Int) = address.toInt :=
    Word.toNat_toUInt64 (Int.le_trans (Int.natCast_nonneg _) h.1)
  rw [← value] at h
  exact indexOf_lt_slotCount h

/-- A 16-bit value is no address of the data region, whatever its sign. -/
theorem checkValue_of_fits16 {value : Word} (fits : value.fits16 = true) :
    data.checkValue value = .error (.outOfRange .data value) := by
  obtain ⟨-, high⟩ := Word.fits16_iff.mp fits
  by_cases negative : value.toInt < 0
  · exact checkValue_of_negative data negative
  · have same : (value.toUInt64.toNat : Int) = value.toInt := Word.toNat_toUInt64 (by omega)
    have below : value.toUInt64.toNat < data.base := by
      simp only [base]
      omega
    rw [checkValue_of_nonneg data (by omega), check_of_lt_base below, Int64.toInt64_toUInt64]

end Region

/-! ## One access -/

namespace Machine

section Access

variable {machine : Machine} {inst : Instruction}
  {outcome : Except AddressError Architecture}
  (memory : inst.opcode.format = .memory)
  (performed : machine.architecture.perform (inst.address + 4) inst.opcode inst.operands =
    some outcome)
  (stepped : (machine.step.1, machine.step.2.architecture) =
    machine.architecture.settle (outcome.mapError (Fault.address .memoryAccess)))
include memory performed stepped

/-- An access with a 16-bit offset from `r0` is out of range. -/
theorem faults_of_zeroBased {rt : Reg} {offset : Word}
    (operands : inst.operands = .immediate .zero rt (.literal offset) .plain)
    (fits : offset.fits16 = true) :
    machine.step.1 = .error (.address .memoryAccess (.outOfRange .data offset)) := by
  have address : machine.architecture.read .zero + ImmediateMode.plain.offset offset = offset :=
    machine.read_zero_add offset
  have refused := Region.checkValue_of_fits16 fits
  rw [operands] at performed
  rcases Opcode.format_eq_memory_iff.mp memory with op | op
  · rw [op] at performed
    obtain rfl := Option.some.inj performed
    rw [address, DataStore.load, refused] at stepped
    exact (Prod.mk.inj stepped).1
  · rw [op] at performed
    obtain rfl := Option.some.inj performed
    rw [address, DataStore.store, refused] at stepped
    exact (Prod.mk.inj stepped).1

end Access

/-- Whether a machine stands at a load or a store that a line writes one way or the other. -/
structure AtAccess (machine : Machine) (lines : List SourceLine) (inst : Instruction)
    (addressing : Addressing) : Prop where
  here : machine.pc = some inst.address
  placed : ∃ index, machine.text.get? index = some inst
  opcode : inst.opcode = .lw ∨ inst.opcode = .sw
  written : ∃ line ∈ lines, inst.line = some line.number ∧ line.addressing? = some addressing

end Machine

/-! ## Programs -/

namespace Program

variable {source : String} {program : Program} {machine : Machine} {index : Nat}
  {inst : Instruction}

/-- What a machine at a load or a store knows of it. -/
theorem addressedAs_of_atAccess (h : ofSource source = .ok program)
    (text : machine.text = program.text) {addressing : Addressing}
    (stands : machine.AtAccess (SourceLine.ofSource source) inst addressing) :
    ∃ index, program.text.get? index = some inst ∧ inst.opcode.format = .memory ∧
      inst.operands.AddressedAs addressing := by
  obtain ⟨-, ⟨index, found⟩, opcode, line, mem, origin, reads⟩ := stands
  have memory := Opcode.format_eq_memory_iff.mpr opcode
  rw [text] at found
  exact ⟨index, found, memory,
    addressedAs_of_line (SourceLine.pairwise_ofSource source) h found memory mem origin reads⟩

/-- A machine at a load or a store of its program stands where a line wrote its operand. -/
theorem atAccess_of_get? (h : ofSource source = .ok program) (text : machine.text = program.text)
    (found : machine.text.get? index = some inst) (here : machine.pc = some inst.address)
    (opcode : inst.opcode = .lw ∨ inst.opcode = .sw) :
    ∃ addressing, machine.AtAccess (SourceLine.ofSource source) inst addressing := by
  have placed : program.text.get? index = some inst := by
    rw [← text]
    exact found
  obtain ⟨line, mem, origin, addressing, reads, -⟩ :=
    addressing_of_get? h placed (Opcode.format_eq_memory_iff.mpr opcode)
  exact ⟨addressing, here, ⟨index, found⟩, opcode, line, mem, origin, reads⟩

/-- A machine in reach of its program faults in an access only where a base is named. -/
theorem based_of_fault (h : ofSource source = .ok program) (reach : program.InReach machine)
    {error : AddressError} (failed : machine.step.1 = .error (.address .memoryAccess error)) :
    ∃ inst base, machine.AtAccess (SourceLine.ofSource source) inst (.based base) := by
  cases reach.position h with
  | halted pc =>
    rw [Machine.step_of_halted pc] at failed
    cases failed
  | below pc here low =>
    rw [(step_of_below here low).1] at failed
    cases failed
  | past pc index here supported empty =>
    rw [(step_of_past here supported empty).1] at failed
    cases failed
  | placed index inst found here =>
    obtain ⟨outcome, performed, stepped⟩ := performs_of_get? h found reach.text here
    have memory : inst.opcode.format = .memory := by
      by_contra other
      have stepped := (stepsAt_of_get? h found reach.text here).2
      rw [(stepped.completes_of_not_memory other).1] at failed
      cases failed
    have placed : machine.text.get? index = some inst := by
      rw [reach.text]
      exact found
    obtain ⟨addressing, stands⟩ :=
      atAccess_of_get? h reach.text placed here (Opcode.format_eq_memory_iff.mp memory)
    cases addressing with
    | bare =>
      -- the address of a bare operand is supported
      obtain ⟨_, found, -, bare⟩ := addressedAs_of_atAccess h reach.text stands
      obtain ⟨rt, value, operands, supported⟩ := supports_of_bare h found bare
      rw [(Machine.usesSlot_of_bare performed stepped memory operands supported).1] at failed
      cases failed
    | based base => exact ⟨inst, base, stands⟩

/-- Only operands with a base can fault. However far a program runs, a load or a store that is
written with a label or a literal address completes on a slot of the data, and one whose base is
left out or names `r0` is out of range. A fault of an access, also one that ends a run, is that of
an operand with a base, and no fault changes the data. -/
theorem access_faults_are_based (h : ofSource source = .ok program) (tracing : Bool) :
    let lines := SourceLine.ofSource source
    let start := Machine.load program tracing
    (∀ count,
      let machine := start.after count
      (∀ index inst, machine.text.get? index = some inst → machine.pc = some inst.address →
        inst.opcode = .lw ∨ inst.opcode = .sw →
          ∃ addressing, machine.AtAccess lines inst addressing) ∧
      (∀ inst, machine.AtAccess lines inst .bare →
        machine.step.1 = .ok () ∧ ∃ slot < 256, machine.UsesSlot inst slot) ∧
      (∀ inst base, (Addressing.based base).IsZeroBased →
        machine.AtAccess lines inst (.based base) →
          ∃ value, machine.step.1 = .error (.address .memoryAccess (.outOfRange .data value))) ∧
      (∀ error, machine.step.1 = .error (.address .memoryAccess error) →
        ∃ inst base, machine.AtAccess lines inst (.based base)) ∧
      ∀ fault, machine.step.1 = .error fault → machine.step.2.data = machine.data) ∧
    ∀ limit error,
      (Simulation.load program tracing limit).run.1 = .error (.address .memoryAccess error) →
        ∃ count inst base, (start.after count).AtAccess lines inst (.based base) := by
  intro lines start
  refine ⟨fun count => ?_, fun limit error failed => ?_⟩
  · have reach : program.InReach (start.after count) := inReach_after h tracing count
    generalize start.after count = machine at reach
    refine ⟨?_, ?_, ?_, fun error failed => based_of_fault h reach failed, ?_⟩
    · intro index inst found here opcode
      exact atAccess_of_get? h reach.text found here opcode
    · intro inst stands
      obtain ⟨index, found, memory, bare⟩ := addressedAs_of_atAccess h reach.text stands
      obtain ⟨rt, value, operands, supported⟩ := supports_of_bare h found bare
      obtain ⟨outcome, performed, stepped⟩ := performs_of_get? h found reach.text stands.here
      obtain ⟨succeeds, uses⟩ :=
        Machine.usesSlot_of_bare performed stepped memory operands supported
      exact ⟨succeeds, _, Region.indexOf_lt_of_supports supported, uses⟩
    · intro inst base zero stands
      obtain ⟨index, found, memory, based⟩ := addressedAs_of_atAccess h reach.text stands
      obtain ⟨outcome, performed, stepped⟩ := performs_of_get? h found reach.text stands.here
      generalize shape : inst.operands = operands at based
      cases based with
      | based _ rs rt offset fits base =>
        obtain rfl := base zero
        exact ⟨offset, Machine.faults_of_zeroBased memory performed stepped shape fits⟩
    · intro fault failed
      obtain ⟨pc, reports, -, kept, -⟩ := Machine.step_of_error failed
      rw [kept]
  · rcases Simulation.runFor_error failed with limited | ⟨count, failed⟩
    · cases limited
    · exact ⟨count, based_of_fault h (inReach_after h tracing count) failed⟩

/-- A load with a label completes, and the store after it leaves its base out and faults. -/
theorem access_faults_are_based_of_omitted_base :
    let source := "lw r1, x\nsw r1, -8()\nx: .word 7"
    ∃ program, ofSource source = .ok program ∧
      let start := Machine.load program true
      (start.step.1 = .ok () ∧ ∃ inst, ∃ slot < 256, start.UsesSlot inst slot) ∧
      ∃ value,
        (start.after 1).step.1 = .error (.address .memoryAccess (.outOfRange .data value)) ∧
        (start.after 1).step.2.data = (start.after 1).data := by
  intro source
  let load : Instruction :=
    { opcode := .lw, operands := .immediate 0 1 (.literal 0x4004000) .wordAddress
      line := some 1, address := 0x00400000, assembled := true }
  let store : Instruction :=
    { opcode := .sw, operands := .immediate 0 1 (.literal (-8)) .plain
      line := some 2, address := 0x00400004, assembled := true }
  let first : SourceLine := { number := 1, keyword := "lw", operands := "r1, x" }
  let second : SourceLine := { number := 2, keyword := "sw", operands := "r1, -8()" }
  have parts : (ofSource source).toOption.map
      (fun program =>
        (program.text.get? 0, program.text.get? 1, ((Machine.load program true).after 1).pc)) =
        some (some load, some store, some 0x00400004) := by decide +kernel
  have firstMem : first ∈ SourceLine.ofSource source := by decide +kernel
  have secondMem : second ∈ SourceLine.ofSource source := by decide +kernel
  have bare : first.addressing? = some .bare := by decide +kernel
  have based : second.addressing? = some (.based []) := by decide +kernel
  cases h : ofSource source with
  | error reasons =>
    rw [h] at parts
    contradiction
  | ok program =>
    rw [h] at parts
    obtain ⟨loads, rest⟩ := Prod.mk.inj (Option.some.inj parts)
    obtain ⟨stores, here⟩ := Prod.mk.inj rest
    have faults := (access_faults_are_based h true).1
    obtain ⟨-, completes, -⟩ := faults 0
    obtain ⟨-, -, zero, -, keeps⟩ := faults 1
    have text : ((Machine.load program true).after 1).text = program.text :=
      (inReach_after h true 1).text
    obtain ⟨succeeds, slot⟩ :=
      completes load ⟨rfl, ⟨0, loads⟩, .inl rfl, first, firstMem, rfl, bare⟩
    obtain ⟨value, failed⟩ :=
      zero store [] (.inl rfl)
        ⟨here, ⟨1, by rw [text]; exact stores⟩, .inr rfl, second, secondMem, rfl, based⟩
    exact ⟨program, rfl, ⟨succeeds, load, slot⟩, value, failed, keeps _ failed⟩

end Program

end TinyMips
