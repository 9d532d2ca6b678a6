import TinyMips.Proofs.Machine.Statistics
import TinyMips.Proofs.Machine.Step

/-!
# How a step ends

`Machine.step` threads a whole machine through its stages, but what it does is decided by the
architecture and the text store alone. `Architecture.execute` computes that part: the result, the
architecture after the step, and the reports, warnings and counts that the step adds.

* **factoring** — a step adopts what `execute` computes and adds it to what the machine has told so
  far (`Machine.step_eq_adopt`), so that no later proof opens the step function;
* **the three endings** — a refused fetch tells nothing, a refused access tells the stages that
  came before it, and a completed instruction tells all six (`Architecture.Ends`,
  `Architecture.ends_execute`).
-/

namespace TinyMips

def Log.warnAll (log : Log) (warnings : List LogEntry) : Log :=
  { log with warnings := log.warnings ++ warnings }

theorem Log.warnAll_append (log : Log) (first second : List LogEntry) :
    log.warnAll (first ++ second) = (log.warnAll first).warnAll second := by
  unfold warnAll
  congr 1
  rw [← Array.toList_inj]
  simp

/-! ## Endings -/

/-- How a step ends: its result, the architecture after it, and what it adds to the reports, the
warnings and the counts of a run. -/
structure Ending where
  result : Except Fault Unit
  state : Architecture
  reports : List StageReport := []
  warnings : List LogEntry := []
  counts : Statistics := {}

namespace WrittenBack

/-- The warning of a refused write. -/
def warnings (written : WrittenBack) (line : Option Nat) : List LogEntry :=
  match written with
  | .write _ value false => [{ line, message := .writeDiscarded value }]
  | _ => []

/-- The count of a refused write. -/
def counts : WrittenBack → Statistics
  | .write _ _ false => ({} : Statistics).discard
  | _ => {}

end WrittenBack

namespace Fetched

variable (fetched : Fetched)

/-- The reports of the stages that cannot fail. -/
def issued (registers : RegisterFile) : List StageReport :=
  [.fetch fetched, .decode (Stage.decodeOpcode fetched.instruction.opcode),
    .readOperands (fetched.operandsRead registers), .execute (fetched.executed registers)]

/-- The warning of an implicit exit. -/
def warnings (pc : Address) : List LogEntry :=
  if fetched.implicit then [{ line := none, message := .implicitExit pc }] else []

/-- What the last stage reports. A value is committed unless it is offered to `r0`. -/
def written (result : Word) (access : Option MemoryAccess) : WrittenBack :=
  if fetched.instruction.opcode.isTerminal then .terminal
  else
    match Stage.destination? fetched.signals.dest fetched.instruction.operands with
    | none => .nothing
    | some r => .write r (Stage.writeBackValue fetched.signals.wb result access) (r ≠ .zero)

end Fetched

namespace Architecture

variable (state : Architecture)

theorem data_retire (fetched : Fetched) (result : Word) (accessed : Accessed) :
    (state.retire fetched result accessed).data = state.data := by
  unfold retire
  split
  · rfl
  · split <;> rfl

/-- A run goes on at the next instruction unless the last one was terminal. -/
theorem pc_retire (fetched : Fetched) (result : Word) (accessed : Accessed) :
    (state.retire fetched result accessed).pc =
      if fetched.instruction.opcode.isTerminal then none else some accessed.nextPc := by
  unfold retire
  split
  · rfl
  · split <;> rfl

/-- The ending of an instruction that made its access to data. -/
def finish (pc : Address) (fetched : Fetched) (accessed : Accessed) (data : DataStore) : Ending :=
  let result := (fetched.executed state.registers).result
  let written := fetched.written result accessed.access
  { result := .ok ()
    state := { state with data }.retire fetched result accessed
    reports := fetched.issued state.registers ++ [.memoryAccess accessed, .writeBack written]
    warnings := fetched.warnings pc ++ written.warnings fetched.instruction.line
    counts := ({} : Statistics).retire fetched.instruction.opcode accessed.taken + written.counts }

/-- The ending of a step at an address. -/
def execute (text : TextStore) (pc : Address) : Ending :=
  match Stage.fetchAt text pc with
  | .error fault => { result := .error fault, state }
  | .ok fetched =>
    match fetched.accessed state.registers state.data with
    | .error fault =>
      { result := .error fault, state, reports := fetched.issued state.registers
        warnings := fetched.warnings pc }
    | .ok (accessed, data) => state.finish pc fetched accessed data

end Architecture

/-! ## A step adopts its ending -/

namespace Machine

/-- The block of a report on the next instruction. -/
def block (machine : Machine) (pc : Address) (report : StageReport) : TraceBlock :=
  { step := machine.steps + 1, pc, report }

/-- The machine after a step at an address: it stands where the ending says, and what the ending
adds is added to what the machine told before. -/
def adopt (machine : Machine) (pc : Address) (ending : Ending) : Machine :=
  { machine with
    pc := ending.state.pc
    registers := ending.state.registers
    data := ending.state.data
    log := machine.log.warnAll ending.warnings
    trace :=
      if machine.tracing then machine.trace ++ ending.reports.map (machine.block pc)
      else machine.trace
    statistics := machine.statistics + ending.counts
    steps := machine.steps + 1 }

variable {machine : Machine} {pc : Address} {fetched : Fetched}

theorem issue_eq_adopt (result : Except Fault Unit) :
    machine.issue pc fetched =
      machine.adopt pc
        { result, state := machine.architecture, reports := fetched.issued machine.registers
          warnings := fetched.warnings pc } := by
  obtain ⟨_, registers, text, data, log, trace, statistics, tracing, steps⟩ := machine
  obtain ⟨npc, instruction, implicit⟩ := fetched
  cases tracing <;> cases implicit <;> rfl

theorem start_eq_adopt (result : Except Fault Unit) :
    machine.start = machine.adopt pc { result, state := machine.architecture } := by
  obtain ⟨_, registers, text, data, log, trace, statistics, tracing, steps⟩ := machine
  cases tracing <;> rfl

/-- The last stage leaves what its report says. -/
theorem writeBack_eq_written (machine : Machine) (fetched : Fetched) (result : Word)
    (accessed : Accessed) :
    machine.writeBack fetched.instruction fetched.signals result accessed =
      let written := fetched.written result accessed.access
      let state := machine.architecture.retire fetched result accessed
      (written,
        { machine with
          pc := state.pc
          registers := state.registers
          log := machine.log.warnAll (written.warnings fetched.instruction.line)
          statistics := machine.statistics.retire fetched.instruction.opcode accessed.taken +
            written.counts }) := by
  unfold writeBack Fetched.written Architecture.retire
  dsimp only
  split
  · rfl
  · cases Stage.destination? fetched.signals.dest fetched.instruction.operands with
    | none => rfl
    | some r =>
      dsimp only
      by_cases zero : r = .zero
      · subst zero
        rfl
      · simp [writeRegister, RegisterFile.commit, RegisterFile.write?, zero,
          Architecture.assign, Architecture.goTo, WrittenBack.warnings, WrittenBack.counts,
          Log.warnAll, architecture, Statistics.add_empty]

theorem record_eq (machine : Machine) (pc : Address) (report : StageReport) :
    machine.record pc report =
      { machine with
        trace :=
          if machine.tracing then machine.trace.push { step := machine.steps, pc, report }
          else machine.trace } := by
  unfold record
  split <;> rfl

theorem complete_eq_adopt (accessed : Accessed) (data : DataStore) :
    machine.complete pc fetched accessed data =
      machine.adopt pc (machine.architecture.finish pc fetched accessed data) := by
  unfold complete retire access
  rw [issue_eq_adopt (.ok ()), writeBack_eq_written]
  simp only [record_eq, adopt, Architecture.finish, Architecture.data_retire]
  rw [Log.warnAll_append, Statistics.retire_eq_add, Statistics.add_assoc]
  cases machine.tracing with
  | false => rfl
  | true => rfl

/-- A step is decided by the architecture and the text store, and adopts what they decide. -/
theorem step_eq_adopt (here : machine.pc = some pc) :
    machine.step =
      ((machine.architecture.execute machine.text pc).result,
        machine.adopt pc (machine.architecture.execute machine.text pc)) := by
  rw [step_eq here]
  unfold Architecture.execute
  cases Stage.fetchAt machine.text pc with
  | error fault =>
    dsimp only
    rw [← start_eq_adopt]
  | ok fetched =>
    dsimp only [architecture]
    cases fetched.accessed machine.registers machine.data with
    | error fault =>
      dsimp only
      rw [issue_eq_adopt (.error fault)]
      rfl
    | ok outcome =>
      obtain ⟨accessed, data⟩ := outcome
      dsimp only
      rw [complete_eq_adopt]
      rfl

theorem text_step (machine : Machine) : machine.step.2.text = machine.text := by
  cases here : machine.pc with
  | none => rw [step_of_halted here]
  | some pc =>
    rw [step_eq_adopt here]
    rfl

theorem trace_adopt (tracing : machine.tracing = true) (pc : Address) (ending : Ending) :
    (machine.adopt pc ending).trace = machine.trace ++ ending.reports.map (machine.block pc) :=
  if_pos tracing

theorem trace_adopt_of_silent (silent : machine.tracing = false) (pc : Address)
    (ending : Ending) : (machine.adopt pc ending).trace = machine.trace := by
  unfold adopt
  rw [silent]
  rfl

theorem mem_trace_adopt (tracing : machine.tracing = true) {ending : Ending}
    {block : TraceBlock} :
    block ∈ (machine.adopt pc ending).trace ↔
      block ∈ machine.trace ∨ ∃ report ∈ ending.reports, machine.block pc report = block := by
  rw [trace_adopt tracing, ← Array.mem_toList_iff, Array.toList_appendList, List.mem_append,
    Array.mem_toList_iff, List.mem_map]

/-- Once an instruction is fetched, a step reports what it executes. -/
theorem execute_mem_trace (tracing : machine.tracing = true) (here : machine.pc = some pc)
    (fetch : Stage.fetchAt machine.text pc = .ok fetched) :
    { step := machine.steps + 1, pc, report := .execute (fetched.executed machine.registers) } ∈
      machine.step.2.trace := by
  rw [step_eq_adopt here, mem_trace_adopt tracing]
  refine .inr ⟨_, ?_, rfl⟩
  unfold Architecture.execute
  rw [fetch]
  dsimp only
  cases fetched.accessed machine.architecture.registers machine.architecture.data with
  | error fault => simp [Fetched.issued, architecture]
  | ok outcome => simp [Architecture.finish, Fetched.issued, architecture]

end Machine

/-! ## The three endings -/

/-- A fetched instruction is ready, or it is the exit that runs where none was placed. -/
theorem Stage.fetch_of_fetchAt {text : TextStore} {pc : Address} {fetched : Fetched}
    (h : fetchAt text pc = .ok fetched) :
    (text.fetch pc = .ok none ∧
        fetched = { npc := pc + 4, instruction := .implicitExit pc, implicit := true }) ∨
      ∃ inst, text.fetch pc = .ok (some inst) ∧ inst.isReady = true ∧
        fetched = { npc := pc + 4, instruction := inst, implicit := false } := by
  unfold fetchAt at h
  split at h
  · contradiction
  · next empty => exact .inl ⟨empty, (Except.ok.inj h).symm⟩
  · next inst placed =>
    split at h
    · contradiction
    · next unlabelled =>
      split at h
      · next assembled =>
        refine .inr ⟨inst, placed, ?_, (Except.ok.inj h).symm⟩
        simp [Instruction.isReady, assembled, unlabelled]
      · contradiction

/-- Only an access to data can fail once an instruction is fetched. -/
theorem Fetched.accessed_error {fetched : Fetched} {registers : RegisterFile} {data : DataStore}
    {fault : Fault} (h : fetched.accessed registers data = .error fault) :
    fetched.signals.mem ≠ .none ∧ ∃ error, fault = .address .memoryAccess error := by
  unfold accessed Stage.accessMemory at h
  dsimp only at h
  split at h
  · contradiction
  · next load =>
    refine ⟨by rw [load]; decide, ?_⟩
    split at h
    · next error _ => exact ⟨error, (Except.error.inj h).symm⟩
    · contradiction
  · next store =>
    refine ⟨by rw [store]; decide, ?_⟩
    split at h
    · next error _ => exact ⟨error, (Except.error.inj h).symm⟩
    · contradiction

namespace Architecture

/-- The three endings of a step at an address. -/
inductive Ends (state : Architecture) (text : TextStore) (pc : Address) : Ending → Prop where
  | refused (fault : Fault) (fetch : Stage.fetchAt text pc = .error fault) :
    state.Ends text pc { result := .error fault, state }
  | faulted (fetched : Fetched) (error : AddressError)
    (fetch : Stage.fetchAt text pc = .ok fetched)
    (access : fetched.accessed state.registers state.data =
      .error (.address .memoryAccess error)) :
    state.Ends text pc
      { result := .error (.address .memoryAccess error), state
        reports := fetched.issued state.registers }
  | finished (fetched : Fetched) (accessed : Accessed) (data : DataStore)
    (fetch : Stage.fetchAt text pc = .ok fetched)
    (access : fetched.accessed state.registers state.data = .ok (accessed, data)) :
    state.Ends text pc (state.finish pc fetched accessed data)

theorem ends_execute (state : Architecture) (text : TextStore) (pc : Address) :
    state.Ends text pc (state.execute text pc) := by
  unfold execute
  cases fetch : Stage.fetchAt text pc with
  | error fault => exact .refused fault fetch
  | ok fetched =>
    dsimp only
    cases access : fetched.accessed state.registers state.data with
    | error fault =>
      obtain ⟨accesses, error, rfl⟩ := fetched.accessed_error access
      -- an implicit exit has no access that could fail, so nothing was announced
      have silent : fetched.warnings pc = [] := by
        rcases Stage.fetch_of_fetchAt fetch with ⟨-, rfl⟩ | ⟨inst, -, -, rfl⟩
        · exact absurd rfl accesses
        · rfl
      rw [silent]
      exact .faulted fetched error fetch access
    | ok outcome => exact .finished fetched outcome.1 outcome.2 fetch access

/-- An ending counts at most one completed instruction. -/
theorem Ends.balanced {state : Architecture} {text : TextStore} {pc : Address} {ending : Ending}
    (h : state.Ends text pc ending) : ending.counts.retired ≤ 1 ∧ ending.counts.Balanced := by
  cases h with
  | refused => exact ⟨Nat.zero_le 1, Statistics.balanced_empty⟩
  | faulted => exact ⟨Nat.zero_le 1, Statistics.balanced_empty⟩
  | finished fetched accessed =>
    obtain ⟨one, kept, balanced⟩ :=
      Statistics.balanced_retire fetched.instruction.opcode accessed.taken
    unfold finish
    dsimp only
    generalize fetched.written _ accessed.access = written
    refine ⟨?_, ?_⟩
    · rw [Statistics.retired_add, one]
      cases written with
      | terminal | nothing => exact Nat.le_refl 1
      | write r value committed => cases committed <;> exact Nat.le_refl 1
    · cases written with
      | terminal | nothing => exact balanced
      | write r value committed =>
        cases committed with
        | true => exact balanced
        | false => exact balanced.discard (by omega)

end Architecture

end TinyMips
