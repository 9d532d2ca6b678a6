import TinyMips.Proofs.Machine.Ending
import TinyMips.Proofs.Machine.Run

/-!
# The records of a run

A run is recorded in its counters, its warnings and its trace, each written by other stages. They
tell the same story:

* **one step** — what a step counts and warns about is what its reports tell
  (`Architecture.tallies_execute`), and an implicit exit halts the machine
  (`Architecture.implicit_execute`);
* **over a run** — both hold after any number of steps, failed ones included
  (`Machine.Recorded.step`, `Machine.records_agree`).
-/

namespace TinyMips

/-! ## What a report tells -/

/-- The kind of an access to data memory. -/
def MemoryAccess.kind : MemoryAccess → MemoryOp
  | load .. => .load
  | store .. => .store

namespace StageReport

/-- Whether a report completes an instruction. -/
def isWriteBack : StageReport → Bool
  | writeBack _ => true
  | _ => false

/-- Whether a report shows an access of a kind to data memory. -/
def isAccess (kind : MemoryOp) : StageReport → Bool
  | memoryAccess accessed => accessed.access.map MemoryAccess.kind = some kind
  | _ => false

/-- Whether a report shows a branch with an outcome. -/
def isBranch (taken : Bool) : StageReport → Bool
  | memoryAccess accessed => accessed.taken = some taken
  | _ => false

/-- Whether a report has a destination that refused its value. -/
def isDiscard : StageReport → Bool
  | writeBack (.write _ _ committed) => !committed
  | _ => false

/-- Whether a report fetches an exit where no instruction was placed. -/
def isImplicit : StageReport → Bool
  | fetch fetched => fetched.implicit
  | _ => false

end StageReport

open StageReport (isWriteBack isAccess isBranch isDiscard isImplicit)

/-- Whether counters and a number of warnings are what some reports tell. -/
structure Statistics.Tallies (stats : Statistics) (warnings : Nat) (reports : List StageReport) :
    Prop where
  retired : stats.retired = reports.countP isWriteBack
  loads : stats.loads = reports.countP (isAccess .load)
  stores : stats.stores = reports.countP (isAccess .store)
  taken : stats.taken = reports.countP (isBranch true)
  notTaken : stats.notTaken = reports.countP (isBranch false)
  discarded : stats.discarded = reports.countP isDiscard
  warnings : warnings = stats.discarded + reports.countP isImplicit

namespace Statistics

theorem tallies_empty : Tallies {} 0 [] := ⟨rfl, rfl, rfl, rfl, rfl, rfl, rfl⟩

theorem Tallies.add {stats more : Statistics} {warnings added : Nat}
    {reports later : List StageReport} (first : stats.Tallies warnings reports)
    (second : more.Tallies added later) :
    (stats + more).Tallies (warnings + added) (reports ++ later) where
  retired := by rw [List.countP_append, ← first.retired, ← second.retired]; rfl
  loads := by rw [List.countP_append, ← first.loads, ← second.loads]; rfl
  stores := by rw [List.countP_append, ← first.stores, ← second.stores]; rfl
  taken := by rw [List.countP_append, ← first.taken, ← second.taken]; rfl
  notTaken := by rw [List.countP_append, ← first.notTaken, ← second.notTaken]; rfl
  discarded := by rw [List.countP_append, ← first.discarded, ← second.discarded]; rfl
  warnings := by
    have discarded : (stats + more).discarded = stats.discarded + more.discarded := rfl
    rw [List.countP_append, discarded, first.warnings, second.warnings]
    omega

end Statistics

/-! ## One step -/

section Step

variable {fetched : Fetched} {registers : RegisterFile} {data next : DataStore}
  {accessed : Accessed} {text : TextStore} {pc : Address}

namespace Fetched

/-- Only the exit that runs where no instruction was placed is implicit. -/
theorem instruction_of_implicit (fetch : Stage.fetchAt text pc = .ok fetched)
    (implicit : fetched.implicit = true) : fetched.instruction = .implicitExit pc := by
  rcases Stage.fetch_of_fetchAt fetch with ⟨-, rfl⟩ | ⟨inst, -, -, rfl⟩
  · rfl
  · contradiction

theorem not_implicit_of_access (fetch : Stage.fetchAt text pc = .ok fetched)
    (accesses : fetched.signals.mem ≠ .none) : fetched.implicit = false := by
  rw [← Bool.not_eq_true]
  intro implicit
  unfold signals at accesses
  rw [instruction_of_implicit fetch implicit] at accesses
  exact accesses rfl

theorem warnings_of_access (fetch : Stage.fetchAt text pc = .ok fetched)
    (accesses : fetched.signals.mem ≠ .none) : fetched.warnings pc = [] := by
  unfold warnings
  rw [not_implicit_of_access fetch accesses, if_neg Bool.false_ne_true]

/-- The access to data and the outcome of a branch are those that the signals ask for. -/
theorem accessed_signals (h : fetched.accessed registers data = .ok (accessed, next)) :
    accessed.taken = Stage.branchOutcome fetched.signals (fetched.executed registers).result ∧
      accessed.access.map MemoryAccess.kind =
        if fetched.signals.mem = .none then none else some fetched.signals.mem := by
  unfold Fetched.accessed Stage.accessMemory at h
  dsimp only at h
  split at h
  · next none =>
    obtain ⟨rfl, -⟩ := Prod.mk.inj (Except.ok.inj h)
    rw [none]
    exact ⟨rfl, rfl⟩
  · next load =>
    split at h
    · contradiction
    · obtain ⟨rfl, -⟩ := Prod.mk.inj (Except.ok.inj h)
      rw [load]
      exact ⟨rfl, rfl⟩
  · next store =>
    split at h
    · contradiction
    · obtain ⟨rfl, -⟩ := Prod.mk.inj (Except.ok.inj h)
      rw [store]
      exact ⟨rfl, rfl⟩

/-- The stages that cannot fail count nothing and warn of an implicit exit. -/
theorem tallies_issued (fetched : Fetched) (registers : RegisterFile) (pc : Address) :
    Statistics.Tallies {} (fetched.warnings pc).length (fetched.issued registers) := by
  refine ⟨rfl, rfl, rfl, rfl, rfl, rfl, ?_⟩
  unfold warnings
  cases mark : fetched.implicit <;> simp [issued, isImplicit, mark]

/-- What is counted for an instruction before its result is written is what its access to data
tells. -/
theorem counts_retire (access : fetched.accessed registers data = .ok (accessed, next)) :
    let counts := ({} : Statistics).retire fetched.instruction.opcode accessed.taken
    counts.loads = [StageReport.memoryAccess accessed].countP (isAccess .load) ∧
      counts.stores = [StageReport.memoryAccess accessed].countP (isAccess .store) ∧
      counts.taken = [StageReport.memoryAccess accessed].countP (isBranch true) ∧
      counts.notTaken = [StageReport.memoryAccess accessed].countP (isBranch false) := by
  obtain ⟨taken, kind⟩ := accessed_signals access
  unfold signals at taken kind
  simp only [List.countP_singleton, isAccess, isBranch, kind, taken]
  generalize (fetched.executed registers).result = result
  cases fetched.instruction.opcode with
  | add | sub | addi | lw | sw | j | jal | exit | halt | nop => exact ⟨rfl, rfl, rfl, rfl⟩
  | beq | bne | blt | bge | bgt | ble =>
    simp only [Stage.branchOutcome, ControlSignals.ofOpcode, ControlSignals.branch]
    cases BranchUnit.taken _ result <;> exact ⟨rfl, rfl, rfl, rfl⟩

/-- What the last two stages count and warn about is what they report. -/
theorem tallies_completed (access : fetched.accessed registers data = .ok (accessed, next))
    (written : WrittenBack) (line : Option Nat) :
    Statistics.Tallies
      (({} : Statistics).retire fetched.instruction.opcode accessed.taken + written.counts)
      (written.warnings line).length [.memoryAccess accessed, .writeBack written] := by
  obtain ⟨one, kept, -⟩ := Statistics.balanced_retire fetched.instruction.opcode accessed.taken
  obtain ⟨loads, stores, taken, notTaken⟩ := counts_retire access
  generalize ({} : Statistics).retire _ _ = counts at *
  cases written with
  | terminal | nothing => exact ⟨one, loads, stores, taken, notTaken, kept, kept.symm⟩
  | write r value committed =>
    cases committed with
    | true => exact ⟨one, loads, stores, taken, notTaken, kept, kept.symm⟩
    | false =>
      have discarded : counts.discarded + 1 = 1 := by rw [kept]
      exact ⟨one, loads, stores, taken, notTaken, discarded, discarded.symm⟩

end Fetched

end Step

namespace Architecture

variable (state : Architecture) (text : TextStore) (pc : Address)

/-- What a step counts and warns about is what its reports tell. -/
theorem tallies_execute :
    let ending := state.execute text pc
    ending.counts.Tallies ending.warnings.length ending.reports := by
  intro ending
  have ends : state.Ends text pc ending := state.ends_execute text pc
  generalize ending = ending at ends
  cases ends with
  | refused => exact Statistics.tallies_empty
  | faulted fetched error fetch access =>
    have silent := Fetched.warnings_of_access fetch (fetched.accessed_error access).1
    rw [← silent]
    exact fetched.tallies_issued state.registers pc
  | finished fetched accessed data fetch access =>
    have issued := fetched.tallies_issued state.registers pc
    have completed := Fetched.tallies_completed access
      (fetched.written (fetched.executed state.registers).result accessed.access)
      fetched.instruction.line
    have both := issued.add completed
    rw [Statistics.empty_add, ← List.length_append] at both
    exact both

/-- At most one report of a step is an implicit fetch, and then the step ends the run. -/
theorem implicit_execute :
    let ending := state.execute text pc
    ending.reports.countP isImplicit ≤ 1 ∧
      ((∃ report ∈ ending.reports, isImplicit report = true) → ending.state.pc = none) := by
  intro ending
  have ends : state.Ends text pc ending := state.ends_execute text pc
  generalize ending = ending at ends
  cases ends with
  | refused => simp
  | faulted fetched error fetch access =>
    have placed := Fetched.not_implicit_of_access fetch (fetched.accessed_error access).1
    simp [Fetched.issued, isImplicit, placed]
  | finished fetched accessed data fetch access =>
    cases mark : fetched.implicit with
    | false => simp [finish, Fetched.issued, isImplicit, mark]
    | true =>
      have terminal : fetched.instruction.opcode.isTerminal = true := by
        rw [Fetched.instruction_of_implicit fetch mark]
        rfl
      refine ⟨by simp [finish, Fetched.issued, isImplicit, mark], fun _ => ?_⟩
      show (Architecture.retire _ fetched _ accessed).pc = none
      rw [pc_retire, if_pos terminal]

end Architecture

/-! ## Over a run -/

namespace Machine

/-- The reports of a trace, in order. -/
def reports (machine : Machine) : List StageReport :=
  machine.trace.toList.map TraceBlock.report

/-- Whether the records of a machine agree. While it runs, no exit was implicit, and an implicit one
was its last step. -/
structure Recorded (machine : Machine) : Prop where
  tracing : machine.tracing = true
  tallies : machine.statistics.Tallies machine.log.warnings.size machine.reports
  balanced : machine.statistics.Balanced
  running (pc : Address) (here : machine.pc = some pc) :
    ∀ report ∈ machine.reports, isImplicit report = false
  implicit_le : machine.reports.countP isImplicit ≤ 1
  last : ∀ block ∈ machine.trace, isImplicit block.report = true → block.step = machine.steps

theorem recorded_load (program : Program) : (load program true).Recorded where
  tracing := rfl
  tallies := Statistics.tallies_empty
  balanced := Statistics.balanced_empty
  running pc here := by simp [reports, load]
  implicit_le := Nat.zero_le 1
  last block mem := absurd mem (Array.not_mem_empty block)

variable {machine : Machine} {pc : Address}

theorem reports_adopt (tracing : machine.tracing = true) (pc : Address) (ending : Ending) :
    (machine.adopt pc ending).reports = machine.reports ++ ending.reports := by
  unfold reports
  rw [trace_adopt tracing, Array.toList_appendList, List.map_append, List.map_map]
  congr 1
  exact List.map_id ending.reports

theorem size_warnings_adopt (machine : Machine) (pc : Address) (ending : Ending) :
    (machine.adopt pc ending).log.warnings.size =
      machine.log.warnings.size + ending.warnings.length := by
  unfold adopt Log.warnAll
  rw [← Array.length_toList, Array.toList_appendList, List.length_append, Array.length_toList]

theorem report_mem_reports {block : TraceBlock} (mem : block ∈ machine.trace) :
    block.report ∈ machine.reports :=
  List.mem_map_of_mem (Array.mem_toList_iff.mpr mem)

/-- A step is recorded alike by all that record it. -/
theorem Recorded.step (h : machine.Recorded) : machine.step.2.Recorded := by
  cases here : machine.pc with
  | none =>
    rw [step_of_halted here]
    exact h
  | some pc =>
    have tallies := machine.architecture.tallies_execute machine.text pc
    have balanced := (machine.architecture.ends_execute machine.text pc).balanced.2
    obtain ⟨once, ends⟩ := machine.architecture.implicit_execute machine.text pc
    rw [step_eq_adopt here]
    generalize machine.architecture.execute machine.text pc = ending at *
    have before : machine.reports.countP isImplicit = 0 := by
      rw [List.countP_eq_zero]
      intro report mem
      rw [h.running pc here report mem]
      exact Bool.false_ne_true
    constructor
    · exact h.tracing
    · rw [reports_adopt h.tracing, size_warnings_adopt]
      exact h.tallies.add tallies
    · exact h.balanced.add balanced
    · intro next goes report mem
      rw [reports_adopt h.tracing, List.mem_append] at mem
      rcases mem with old | new
      · exact h.running pc here report old
      · rw [← Bool.not_eq_true]
        intro implicit
        have goes : ending.state.pc = some next := goes
        rw [ends ⟨report, new, implicit⟩] at goes
        contradiction
    · rw [reports_adopt h.tracing, List.countP_append, before]
      omega
    · intro block mem implicit
      rcases (mem_trace_adopt h.tracing).mp mem with old | ⟨report, -, rfl⟩
      · have known := h.running pc here block.report
          (List.mem_map_of_mem (Array.mem_toList_iff.mpr old))
        rw [known] at implicit
        contradiction
      · rfl

/-- Counters, warnings and trace tell the same story, after any number of steps that succeeded or
failed. Every completed instruction is reported by its write-back and counted in one category,
accesses to data, outcomes of branches and discarded writes are counted as often as they are
reported, and the warnings are those of discarded writes and of the implicit exit. There is at most
one of these, and it is the last step. -/
theorem records_agree (program : Program) (count : Nat) :
    let machine := (load program true).after count
    let counters := machine.statistics
    let reports := machine.reports
    counters.retired = reports.countP isWriteBack ∧
      counters.retired =
        counters.alu + counters.loads + counters.stores + counters.taken + counters.notTaken +
          counters.jumps + counters.other ∧
      counters.loads = reports.countP (isAccess .load) ∧
      counters.stores = reports.countP (isAccess .store) ∧
      counters.taken = reports.countP (isBranch true) ∧
      counters.notTaken = reports.countP (isBranch false) ∧
      counters.discarded = reports.countP isDiscard ∧
      machine.log.warnings.size = counters.discarded + reports.countP isImplicit ∧
      reports.countP isImplicit ≤ 1 ∧
      ∀ block ∈ machine.trace, isImplicit block.report = true →
        block.step = machine.steps ∧ machine.isHalted = true := by
  intro machine counters reports
  have recorded : machine.Recorded :=
    after_induction (recorded_load program) (fun _ recorded => recorded.step) count
  have told := recorded.tallies
  refine ⟨told.retired, recorded.balanced.categories.symm, told.loads, told.stores, told.taken,
    told.notTaken, told.discarded, told.warnings, recorded.implicit_le, ?_⟩
  intro block mem implicit
  refine ⟨recorded.last block mem implicit, ?_⟩
  unfold isHalted
  cases here : machine.pc with
  | none => rfl
  | some pc =>
    have known := recorded.running pc here block.report (report_mem_reports mem)
    rw [known] at implicit
    contradiction

end Machine

end TinyMips
