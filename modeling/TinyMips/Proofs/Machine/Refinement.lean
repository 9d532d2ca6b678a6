import TinyMips.Architecture.Semantics
import TinyMips.Proofs.Isa.Operands
import TinyMips.Proofs.Machine.Ending
import TinyMips.Proofs.Store.Data

/-!
# The datapath refines the instruction set

Six stages, steered by a table of signals, do in one step what `Architecture.perform` says in one
row for each opcode:

* **comparisons** — what a branch tests on the result of the ALU is the comparison of the integers
  in its registers (`BranchUnit.taken_eq_condition`), also where the subtraction wraps;
* **one pass** — the stages after fetch compute `Architecture.perform`
  (`Architecture.pass_eq_perform`);
* **refinement** — so does a whole step, from any state (`Machine.step_refines_semantics`).
-/

namespace TinyMips

/-! ## Comparisons -/

/-- A difference is zero between equal integers only, although it wraps. -/
theorem Word.sub_eq_zero_iff (a b : Word) : a - b = 0 ↔ a.toInt = b.toInt := by
  rw [Int64.sub_eq_iff_eq_add, Int64.zero_add, Int64.toInt_inj]

theorem Alu.flag_eq_zero_iff (holds : Bool) : Alu.flag holds = 0 ↔ holds = false := by
  cases holds <;> decide

/-- A branch is taken when its condition holds of the integers in its registers. -/
theorem BranchUnit.taken_eq_condition {op : Opcode} (h : op.format = .branch) (a b : Word) :
    BranchUnit.taken (ControlSignals.ofOpcode op).cond
        (Alu.execute (ControlSignals.ofOpcode op).alu a b) =
      op.condition a.toInt b.toInt := by
  rw [Bool.eq_iff_iff]
  cases op <;> first | (exact absurd h (by decide)) | skip
  case beq =>
    simp [taken, ControlSignals.ofOpcode, ControlSignals.branch, Alu.execute, Alu.arithmetic,
      Opcode.condition, Word.sub_eq_zero_iff]
  case bne =>
    simp [taken, ControlSignals.ofOpcode, ControlSignals.branch, Alu.execute, Alu.arithmetic,
      Opcode.condition, Word.sub_eq_zero_iff]
  all_goals
    simp [taken, ControlSignals.ofOpcode, ControlSignals.branch, Alu.execute, Alu.logic,
      Opcode.condition, Alu.flag_eq_zero_iff, Int64.lt_iff_toInt_lt, Int64.le_iff_toInt_le]

/-! ## One pass through the stages -/

namespace Architecture

/-- The architecture after an instruction went through the stages, or the fault of its access. -/
def pass (state : Architecture) (fetched : Fetched) : Except Fault Architecture :=
  match fetched.accessed state.registers state.data with
  | .error fault => .error fault
  | .ok (accessed, data) =>
    .ok ({ state with data }.retire fetched (fetched.executed state.registers).result accessed)

/-- The data address of a load or a store; other instructions have none. -/
def dataAddress? (state : Architecture) : Opcode → Operands → Option Word
  | .lw, .immediate rs _ (.literal imm) mode | .sw, .immediate rs _ (.literal imm) mode =>
    some (state.read rs + mode.offset imm)
  | _, _ => none

theorem perform_branch (state : Architecture) {npc : Address} {op : Opcode} {rs rt : Reg}
    {imm : Word} (branches : op.format = .branch) :
    state.perform npc op (.immediate rs rt (.literal imm) .plain) =
      some (.ok (state.branch npc op rs rt imm)) := by
  cases op <;> first | exact absurd branches (by decide) | rfl

/-- A branch goes through the stages to its target or to the next instruction. -/
theorem pass_branch (state : Architecture) {fetched : Fetched} {rs rt : Reg} {imm : Word}
    (branches : fetched.instruction.opcode.format = .branch)
    (shape : fetched.instruction.operands = .immediate rs rt (.literal imm) .plain) :
    state.pass fetched =
      .ok (state.branch fetched.npc fetched.instruction.opcode rs rt imm) := by
  obtain ⟨npc, ⟨op, operands, line, address, assembled⟩, implicit⟩ := fetched
  obtain rfl : operands = _ := shape
  replace branches : op.format = .branch := branches
  -- the stages test the flag of the ALU, the row compares integers
  have decided := BranchUnit.taken_eq_condition branches (state.read rs) (state.read rt)
  unfold branch
  rw [← decided, ← apply_ite state.goTo]
  cases op <;> first | exact absurd branches (by decide) | rfl

/-- The effective address of a load or a store is the sum of its base register and its offset. -/
theorem result_of_memory (state : Architecture) {fetched : Fetched} {rs rt : Reg} {imm : Word}
    {mode : ImmediateMode} (accesses : fetched.instruction.opcode.format = .memory)
    (shape : fetched.instruction.operands = .immediate rs rt (.literal imm) mode) :
    (fetched.executed state.registers).result = state.read rs + mode.offset imm := by
  obtain ⟨npc, ⟨op, operands, line, address, assembled⟩, implicit⟩ := fetched
  obtain rfl : operands = _ := shape
  rcases Opcode.format_eq_memory_iff.mp accesses with rfl | rfl
  all_goals cases mode <;> rfl

/-- A load goes through the stages to the value at its address, and a store to the data with its
value. -/
theorem pass_memory (state : Architecture) {fetched : Fetched} {rs rt : Reg} {imm : Word}
    {mode : ImmediateMode} (accesses : fetched.instruction.opcode.format = .memory)
    (shape : fetched.instruction.operands = .immediate rs rt (.literal imm) mode) :
    ∃ outcome,
      state.perform fetched.npc fetched.instruction.opcode fetched.instruction.operands =
          some outcome ∧
        state.pass fetched = outcome.mapError (Fault.address .memoryAccess) := by
  have address := result_of_memory state accesses shape
  obtain ⟨npc, ⟨op, operands, line, own, assembled⟩, implicit⟩ := fetched
  obtain rfl : operands = _ := shape
  rcases Opcode.format_eq_memory_iff.mp accesses with rfl | rfl
  · refine ⟨_, rfl, ?_⟩
    unfold pass Fetched.accessed Stage.accessMemory
    simp only [Fetched.signals, ControlSignals.ofOpcode]
    rw [address]
    cases state.data.load (state.read rs + mode.offset imm) <;> rfl
  · refine ⟨_, rfl, ?_⟩
    unfold pass Fetched.accessed Stage.accessMemory
    simp only [Fetched.signals, ControlSignals.ofOpcode]
    -- a store reads `rt` as a source, where a load names it as its destination
    have stored :
        Stage.rtValue (Fetched.operandsRead
          { npc, implicit
            instruction :=
              { opcode := .sw, operands := .immediate rs rt (.literal imm) mode, line
                address := own, assembled } }
          state.registers) = state.read rt := rfl
    rw [address, stored]
    cases state.data.store (state.read rs + mode.offset imm) (state.read rt) <;> rfl

/-- The exit that runs where no instruction was placed ends the run. -/
theorem pass_implicitExit (state : Architecture) (npc pc : Address) (implicit : Bool) :
    state.pass { npc, instruction := .implicitExit pc, implicit } =
      .ok { state with pc := none } := rfl

/-- An instruction with linked operands means something, and its pass through the stages has the
same outcome. -/
theorem pass_eq_perform (state : Architecture) (fetched : Fetched)
    (linked : fetched.instruction.operands.Linked fetched.instruction.opcode) :
    ∃ outcome,
      state.perform fetched.npc fetched.instruction.opcode fetched.instruction.operands =
          some outcome ∧
        state.pass fetched = outcome.mapError (Fault.address .memoryAccess) := by
  obtain ⟨npc, ⟨op, operands, line, address, assembled⟩, implicit⟩ := fetched
  replace linked : operands.Linked op := linked
  cases linked with
  | none format =>
    rcases Opcode.format_eq_none_iff.mp format with rfl | rfl | rfl
    all_goals exact ⟨_, rfl, rfl⟩
  | register rs rt rd format =>
    rcases Opcode.format_eq_register_iff.mp format with rfl | rfl
    all_goals exact ⟨_, rfl, rfl⟩
  | arithmetic rs rt value format =>
    obtain rfl := Opcode.format_eq_immediateArith_iff.mp format
    exact ⟨_, rfl, rfl⟩
  | memory rs rt value mode format => exact pass_memory state format rfl
  | branch rs rt value format =>
    exact ⟨_, perform_branch state format, pass_branch state format rfl⟩
  | jump value format =>
    rcases Opcode.format_eq_jump_iff.mp format with rfl | rfl
    all_goals exact ⟨_, rfl, rfl⟩

/-- Only accesses to data fail, and they fail at addresses that are not supported. -/
theorem error_iff_of_perform (state : Architecture) {npc : Address} {op : Opcode}
    {operands : Operands} {outcome : Except AddressError Architecture}
    (linked : operands.Linked op) (h : state.perform npc op operands = some outcome) :
    (∃ error, outcome = .error error) ↔
      ∃ address, state.dataAddress? op operands = some address ∧
        ¬Region.data.Supports address.toInt := by
  cases linked with
  | none format =>
    rcases Opcode.format_eq_none_iff.mp format with rfl | rfl | rfl
    all_goals
      obtain rfl := Option.some.inj h
      simp [dataAddress?]
  | register rs rt rd format =>
    rcases Opcode.format_eq_register_iff.mp format with rfl | rfl
    all_goals
      obtain rfl := Option.some.inj h
      simp [dataAddress?]
  | arithmetic rs rt value format =>
    obtain rfl := Opcode.format_eq_immediateArith_iff.mp format
    obtain rfl := Option.some.inj h
    simp [dataAddress?]
  | memory rs rt value mode format =>
    rcases Opcode.format_eq_memory_iff.mp format with rfl | rfl
    all_goals
      obtain rfl := Option.some.inj h
      simp only [dataAddress?, Option.some.injEq, exists_eq_left']
    · rw [← DataStore.load_fails_iff state.data]
      cases state.data.load (state.read rs + mode.offset value) <;> simp [Except.map]
    · rw [← DataStore.store_fails_iff state.data _ (state.read rt)]
      cases state.data.store (state.read rs + mode.offset value) (state.read rt) <;>
        simp [Except.map]
  | branch rs rt value format =>
    rw [perform_branch state format] at h
    obtain rfl := Option.some.inj h
    cases op <;> simp [dataAddress?] <;> contradiction
  | jump value format =>
    rcases Opcode.format_eq_jump_iff.mp format with rfl | rfl
    all_goals
      obtain rfl := Option.some.inj h
      simp [dataAddress?]

/-- What a step shows of an outcome: a fault with the architecture as it was, or the next one. -/
def settle (state : Architecture) : Except Fault Architecture → Except Fault Unit × Architecture
  | .error fault => (.error fault, state)
  | .ok next => (.ok (), next)

end Architecture

/-! ## Refinement -/

theorem Instruction.unlabelled_of_isReady (inst : Instruction) (h : inst.isReady = true) :
    inst.operands.label? = none := by
  simp only [isReady, Bool.and_eq_true, Option.isNone_iff_eq_none] at h
  exact h.2

namespace Machine

/-- Once an instruction is fetched, a step shows its pass through the stages. -/
theorem step_of_fetchAt {machine : Machine} {pc : Address} {fetched : Fetched}
    (h : machine.pc = some pc) (fetch : Stage.fetchAt machine.text pc = .ok fetched) :
    (machine.step.1, machine.step.2.architecture) =
      machine.architecture.settle (machine.architecture.pass fetched) := by
  rw [step_eq_adopt h]
  unfold Architecture.execute Architecture.pass
  rw [fetch]
  dsimp only
  cases fetched.accessed machine.architecture.registers machine.architecture.data with
  | error fault => rfl
  | ok outcome => rfl

/-- Where no instruction was placed, a step ends the run. -/
theorem step_of_empty {machine : Machine} {pc : Address} {index : Nat} (h : machine.pc = some pc)
    (supported : Region.text.check pc = .ok index) (empty : machine.text.get? index = none) :
    (machine.step.1, machine.step.2.architecture) =
      (.ok (), { machine.architecture with pc := none }) := by
  rw [step_of_fetchAt h (fetchAt_of_empty supported empty),
    machine.architecture.pass_implicitExit]
  rfl

/-- At a ready instruction with linked operands, a step does what the instruction means. -/
theorem step_of_linked {machine : Machine} {pc : Address} {index : Nat} {inst : Instruction}
    (h : machine.pc = some pc) (supported : Region.text.check pc = .ok index)
    (placed : machine.text.get? index = some inst) (ready : inst.isReady = true)
    (linked : inst.operands.Linked inst.opcode) :
    ∃ outcome,
      machine.architecture.perform (pc + 4) inst.opcode inst.operands = some outcome ∧
        (machine.step.1, machine.step.2.architecture) =
          machine.architecture.settle (outcome.mapError (Fault.address .memoryAccess)) := by
  have fetch := fetchAt_of_ready supported placed ready
  obtain ⟨outcome, performed, passed⟩ :=
    machine.architecture.pass_eq_perform
      { npc := pc + 4, instruction := inst, implicit := false } linked
  refine ⟨outcome, performed, ?_⟩
  rw [step_of_fetchAt h fetch, passed]

/-- From any state at a supported address whose instruction, if there is one, is ready and has
operands of its format, a step does what that instruction means and nothing else. It fails only
where an access to data leaves the supported addresses, and a fault leaves the architecture as it
was. -/
theorem step_refines_semantics {machine : Machine} {pc : Address} {index : Nat}
    (h : machine.pc = some pc) (supported : Region.text.check pc = .ok index)
    (ready : ∀ inst, machine.text.get? index = some inst →
      inst.isReady = true ∧ inst.operands.Fits inst.opcode) :
    ∃ outcome,
      machine.architecture.performAt machine.text pc index = some outcome ∧
      (machine.step.1, machine.step.2.architecture) =
        machine.architecture.settle (outcome.mapError (Fault.address .memoryAccess)) ∧
      machine.step.2.text = machine.text ∧
      ((∃ error, outcome = .error error) ↔
        ∃ inst address, machine.text.get? index = some inst ∧
          machine.architecture.dataAddress? inst.opcode inst.operands = some address ∧
          ¬Region.data.Supports address.toInt) := by
  unfold Architecture.performAt
  cases placed : machine.text.get? index with
  | none =>
    refine ⟨.ok { machine.architecture with pc := none }, rfl, ?_, text_step machine, ?_⟩
    · exact step_of_empty h supported placed
    · simp
  | some inst =>
    obtain ⟨isReady, fits⟩ := ready inst placed
    have linked := fits.linked (inst.unlabelled_of_isReady isReady)
    obtain ⟨outcome, performed, stepped⟩ := step_of_linked h supported placed isReady linked
    refine ⟨outcome, performed, stepped, text_step machine, ?_⟩
    rw [machine.architecture.error_iff_of_perform linked performed]
    simp

/-- A branch whose subtraction wraps still compares integers: `-2 ^ 63` is less than one. -/
theorem step_refines_semantics_of_wrapping_blt :
    let inst : Instruction :=
      { opcode := .blt, operands := .immediate 1 2 (.literal 3) .plain, line := none
        assembled := true }
    let machine : Machine :=
      { registers := { slots := ((Vector.replicate 32 0).set 1 Int64.minValue).set 2 1 }
        text := TextStore.push {} inst }
    Region.text.check 0x00400000 = .ok 0 ∧ machine.step.1 = .ok () ∧
      machine.step.2.pc = some 0x00400010 := by
  intro inst machine
  have supported : Region.text.check 0x00400000 = .ok 0 := by decide
  have ready (placed : Instruction) (h : machine.text.get? 0 = some placed) :
      placed.isReady = true ∧ placed.operands.Fits placed.opcode := by
    obtain rfl := Option.some.inj h
    decide
  obtain ⟨outcome, performed, stepped, -, -⟩ :=
    step_refines_semantics (rfl : machine.pc = some 0x00400000) supported ready
  have row : machine.architecture.performAt machine.text 0x00400000 0 =
      some (.ok (machine.architecture.goTo 0x00400010)) := by
    rfl
  obtain rfl := Option.some.inj (performed.symm.trans row)
  obtain ⟨succeeds, state⟩ := Prod.mk.inj stepped
  exact ⟨supported, succeeds, congrArg Architecture.pc state⟩

end Machine

end TinyMips
