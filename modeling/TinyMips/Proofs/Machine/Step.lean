import TinyMips.Architecture.State
import TinyMips.Machine.Step

/-!
# What a step does

`Machine.step` in closed form. A started instruction either fails in fetch, or it is issued and
fails in its access to data, or it completes (`Machine.step_eq`). The three outcomes are named
machines, `start`, `issue` and `complete`.
-/

namespace TinyMips

/-! ## The stages of one instruction -/

namespace Fetched

/-- The signals that steer the instruction. -/
def signals (fetched : Fetched) : ControlSignals :=
  .ofOpcode fetched.instruction.opcode

/-- The operands that the instruction reads. -/
def operandsRead (fetched : Fetched) (registers : RegisterFile) : OperandsRead :=
  Stage.readOperandsOf registers fetched.signals fetched.instruction.operands

/-- What the ALU and the branch unit compute for the instruction. -/
def executed (fetched : Fetched) (registers : RegisterFile) : Executed :=
  Stage.executeOn fetched.signals fetched.npc (fetched.operandsRead registers)

/-- The instruction's access to data, with the next instruction that was decided beside it. -/
def accessed (fetched : Fetched) (registers : RegisterFile) (data : DataStore) :
    Except Fault (Accessed × DataStore) :=
  Stage.accessMemory data fetched.signals fetched.npc (fetched.executed registers)
    (Stage.rtValue (fetched.operandsRead registers))

end Fetched

/-- What the last stage does to the architecture. -/
def Architecture.retire (state : Architecture) (fetched : Fetched) (result : Word)
    (accessed : Accessed) : Architecture :=
  if fetched.instruction.opcode.isTerminal then { state with pc := none }
  else
    match Stage.destination? fetched.signals.dest fetched.instruction.operands with
    | none => state.goTo accessed.nextPc
    | some r =>
      (state.goTo accessed.nextPc).assign r
        (Stage.writeBackValue fetched.signals.wb result accessed.access)

namespace Machine

/-! ## The three outcomes -/

/-- The machine that has started one more instruction. -/
def start (machine : Machine) : Machine :=
  { machine with steps := machine.steps + 1 }

/-- The machine that has started an instruction and warned if it is an implicit exit. -/
def announce (machine : Machine) (pc : Address) (fetched : Fetched) : Machine :=
  if fetched.implicit then
    { machine.start with log := machine.log.warn none (.implicitExit pc) }
  else machine.start

/-- The machine after the four stages that cannot fail. -/
def issue (machine : Machine) (pc : Address) (fetched : Fetched) : Machine :=
  ((((machine.announce pc fetched).record pc (.fetch fetched)).record pc
    (.decode (Stage.decodeOpcode fetched.instruction.opcode))).record pc
    (.readOperands (fetched.operandsRead machine.registers))).record pc
    (.execute (fetched.executed machine.registers))

/-- The machine that has made its access to data. -/
def access (machine : Machine) (pc : Address) (fetched : Fetched) (accessed : Accessed)
    (data : DataStore) : Machine :=
  { machine.issue pc fetched with data }.record pc (.memoryAccess accessed)

/-- The report of the last stage of a completed instruction and the machine before that report. -/
def retire (machine : Machine) (pc : Address) (fetched : Fetched) (accessed : Accessed)
    (data : DataStore) : WrittenBack × Machine :=
  (machine.access pc fetched accessed data).writeBack fetched.instruction fetched.signals
    (fetched.executed machine.registers).result accessed

/-- The machine that has completed an instruction. -/
def complete (machine : Machine) (pc : Address) (fetched : Fetched) (accessed : Accessed)
    (data : DataStore) : Machine :=
  (machine.retire pc fetched accessed data).2.record pc
    (.writeBack (machine.retire pc fetched accessed data).1)

theorem step_of_halted {machine : Machine} (h : machine.pc = none) :
    machine.step = (.ok (), machine) := by
  unfold step
  rw [h]

theorem step_eq {machine : Machine} {pc : Address} (h : machine.pc = some pc) :
    machine.step =
      match Stage.fetchAt machine.text pc with
      | .error fault => (.error fault, machine.start)
      | .ok fetched =>
        match fetched.accessed machine.registers machine.data with
        | .error fault => (.error fault, machine.issue pc fetched)
        | .ok (accessed, data) => (.ok (), machine.complete pc fetched accessed data) := by
  obtain ⟨_, registers, text, data, log, trace, statistics, tracing, steps⟩ := machine
  obtain rfl : _ = some pc := h
  show _ = match Stage.fetchAt text pc with | .error fault => _ | .ok fetched => _
  unfold step
  dsimp only
  cases Stage.fetchAt text pc with
  | error fault => rfl
  | ok fetched =>
    -- what is read and accessed after a warning or a report is what the machine had before it
    obtain ⟨npc, instruction, implicit⟩ := fetched
    cases tracing <;> cases implicit <;> rfl

/-- A refused fetch counts as a step and does nothing else. -/
theorem step_of_fetch_error {machine : Machine} {pc : Address} {fault : Fault}
    (h : machine.pc = some pc) (fetch : Stage.fetchAt machine.text pc = .error fault) :
    machine.step = (.error fault, machine.start) := by
  rw [step_eq h, fetch]

/-! ## Fetch -/

section Fetch

variable {text : TextStore} {pc : Address} {index : Nat}

/-- A ready instruction is fetched from its address. -/
theorem fetchAt_of_ready (supported : Region.text.check pc = .ok index) {inst : Instruction}
    (placed : text.get? index = some inst) (ready : inst.isReady = true) :
    Stage.fetchAt text pc = .ok { npc := pc + 4, instruction := inst, implicit := false } := by
  have ⟨assembled, unlabelled⟩ : inst.assembled = true ∧ inst.label? = none := by
    simpa [Instruction.isReady] using ready
  unfold Stage.fetchAt TextStore.fetch
  rw [supported]
  simp [Except.map, placed, assembled, unlabelled]

theorem fetchAt_of_empty (supported : Region.text.check pc = .ok index)
    (empty : text.get? index = none) :
    Stage.fetchAt text pc =
      .ok { npc := pc + 4, instruction := .implicitExit pc, implicit := true } := by
  unfold Stage.fetchAt TextStore.fetch
  rw [supported]
  simp [Except.map, empty]

theorem fetchAt_of_check_error {error : AddressError} (h : Region.text.check pc = .error error) :
    Stage.fetchAt text pc = .error (.address .fetch error) := by
  unfold Stage.fetchAt TextStore.fetch
  rw [h]
  rfl

end Fetch

end Machine

end TinyMips
