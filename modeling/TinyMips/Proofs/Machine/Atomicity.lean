import TinyMips.Machine.Simulation
import TinyMips.Proofs.Machine.Ending

/-!
# Failed steps

A step fails in its fetch or in its access to data (`Fault.AtFetch`, `Stage.atFetch_of_fetchAt`).
Either way the machine is left as it was, apart from the step that was counted and the reports of
the stages that were completed (`Machine.step_of_error`, `Machine.failed_step_atomic`). This needs
nothing of the instruction: its operands may belong to another opcode.
-/

namespace TinyMips

/-- The faults of a fetch from an address. -/
inductive Fault.AtFetch (pc : Address) : Fault → Prop where
  | address (error : AddressError) : AtFetch pc (.address .fetch error)
  | unresolved (label : String) : AtFetch pc (.unresolved pc label)
  | notAssembled : AtFetch pc (.notAssembled pc)

namespace Stage

variable {text : TextStore} {pc : Address} {index : Nat} {inst : Instruction} {fault : Fault}

theorem atFetch_of_fetchAt (h : fetchAt text pc = .error fault) : fault.AtFetch pc := by
  unfold fetchAt at h
  split at h
  · next error _ =>
    obtain rfl := Except.error.inj h
    exact .address error
  · contradiction
  · split at h
    · next label _ =>
      obtain rfl := Except.error.inj h
      exact .unresolved label
    · split at h
      · contradiction
      · obtain rfl := Except.error.inj h
        exact .notAssembled

section Placed

variable (supported : Region.text.check pc = .ok index) (placed : text.get? index = some inst)
include supported placed

/-- A label that is waited for is noticed before anything else. -/
theorem fetchAt_of_label {label : String} (waits : inst.label? = some label) :
    fetchAt text pc = .error (.unresolved pc label) := by
  unfold fetchAt TextStore.fetch
  rw [supported]
  simp [Except.map, placed, waits]

theorem fetchAt_of_not_assembled (unlabelled : inst.label? = none)
    (unfinished : inst.assembled = false) : fetchAt text pc = .error (.notAssembled pc) := by
  unfold fetchAt TextStore.fetch
  rw [supported]
  simp [Except.map, placed, unlabelled, unfinished]

/-- A placed instruction is refused exactly when it is not ready. -/
theorem fetchAt_fails_iff :
    (∃ fault, fetchAt text pc = .error fault) ↔ inst.isReady = false := by
  constructor
  · rintro ⟨fault, refused⟩
    cases ready : inst.isReady with
    | false => rfl
    | true =>
      rw [Machine.fetchAt_of_ready supported placed ready] at refused
      contradiction
  · intro unready
    cases waits : inst.label? with
    | some label => exact ⟨_, fetchAt_of_label supported placed waits⟩
    | none =>
      have unfinished : inst.assembled = false := by
        simpa [Instruction.isReady, waits] using unready
      exact ⟨_, fetchAt_of_not_assembled supported placed waits unfinished⟩

end Placed

end Stage

namespace Machine

variable {machine : Machine} {pc : Address} {fault : Fault}

/-- A failed step adds to the steps and to the trace, and it reports the stages before the one that
failed. -/
theorem step_of_error (failed : machine.step.1 = .error fault) :
    ∃ (pc : Address) (reports : List StageReport), machine.pc = some pc ∧
      machine.step.2 =
        { machine with
          steps := machine.steps + 1
          trace :=
            if machine.tracing then machine.trace ++ reports.map (machine.block pc)
            else machine.trace } ∧
      ((fault.AtFetch pc ∧ Stage.fetchAt machine.text pc = .error fault ∧ reports = []) ∨
        (∃ error, fault = .address .memoryAccess error) ∧
          reports.map StageReport.stage = [.fetch, .decode, .readOperands, .execute]) := by
  cases here : machine.pc with
  | none =>
    rw [step_of_halted here] at failed
    contradiction
  | some pc =>
    rw [step_eq_adopt here] at failed ⊢
    have ends := machine.architecture.ends_execute machine.text pc
    generalize machine.architecture.execute machine.text pc = ending at failed ends
    cases ends with
    | refused _ fetch =>
      obtain rfl := Except.error.inj failed
      exact ⟨pc, [], rfl, by rw [← here]; rfl, .inl ⟨Stage.atFetch_of_fetchAt fetch, fetch, rfl⟩⟩
    | faulted fetched error =>
      obtain rfl := Except.error.inj failed
      exact ⟨pc, fetched.issued machine.registers, rfl, by rw [← here]; rfl,
        .inr ⟨⟨error, rfl⟩, rfl⟩⟩
    | finished => contradiction

/-- A step is refused in its fetch exactly when the fetch is. -/
theorem step_refused_iff (here : machine.pc = some pc) :
    (machine.step.1 = .error fault ∧ fault.AtFetch pc) ↔
      Stage.fetchAt machine.text pc = .error fault := by
  constructor
  · rintro ⟨failed, atFetch⟩
    obtain ⟨_, _, stands, -, ⟨-, refused, -⟩ | ⟨⟨error, rfl⟩, -⟩⟩ := step_of_error failed
    · rw [Option.some.inj (here.symm.trans stands)]
      exact refused
    · cases atFetch
  · intro refused
    rw [step_of_fetch_error here refused]
    exact ⟨rfl, Stage.atFetch_of_fetchAt refused⟩

theorem step_ne_stepLimit (machine : Machine) (limit : Nat) :
    machine.step.1 ≠ .error (.stepLimit limit) := by
  intro failed
  obtain ⟨_, _, -, -, ⟨atFetch, -⟩ | ⟨⟨error, access⟩, -⟩⟩ := step_of_error failed
  · cases atFetch
  · cases access

end Machine

/-- Only the limit of a simulation stops it at its limit, and then nothing has happened. -/
theorem Simulation.step_of_stepLimit {simulation : Simulation} {limit : Nat}
    (h : simulation.step.1 = .error (.stepLimit limit)) :
    limit = simulation.limit ∧ simulation.limit ≤ simulation.machine.steps ∧
      simulation.step.2 = simulation := by
  unfold step at h ⊢
  split at h
  · next reached =>
    rw [if_pos reached]
    exact ⟨(Fault.stepLimit.inj (Except.error.inj h)).symm, reached, rfl⟩
  · exact absurd h (simulation.machine.step_ne_stepLimit limit)

namespace Machine

/-- A failed step is atomic. It keeps the architecture, the instructions, the warnings and the
statistics, counts as a step, and reports nothing if it was refused in its fetch and the first four
stages if its access to data was refused. A placed instruction is refused in its fetch exactly when
it is not ready, for its label first and else for not being assembled, and a simulation that its
limit stops is left as it was. -/
theorem failed_step_atomic (machine : Machine) :
    (∀ fault, machine.step.1 = .error fault →
      ∃ (pc : Address) (reports : List StageReport), machine.pc = some pc ∧
        machine.step.2 =
          { machine with
            steps := machine.steps + 1
            trace :=
              if machine.tracing then machine.trace ++ reports.map (machine.block pc)
              else machine.trace } ∧
        (fault.AtFetch pc ∧ reports = [] ∨
          (∃ error, fault = .address .memoryAccess error) ∧
            reports.map StageReport.stage = [.fetch, .decode, .readOperands, .execute])) ∧
      (∀ pc index inst, machine.pc = some pc → Region.text.check pc = .ok index →
        machine.text.get? index = some inst →
          ((∃ fault, machine.step.1 = .error fault ∧ fault.AtFetch pc) ↔ inst.isReady = false) ∧
          (∀ label, inst.label? = some label →
            machine.step.1 = .error (.unresolved pc label)) ∧
          (inst.label? = none → inst.assembled = false →
            machine.step.1 = .error (.notAssembled pc))) ∧
      ∀ (simulation : Simulation) (limit : Nat), simulation.machine = machine →
        simulation.step.1 = .error (.stepLimit limit) → simulation.step.2 = simulation := by
  refine ⟨?_, ?_, ?_⟩
  · intro fault failed
    obtain ⟨pc, reports, here, kept, ⟨atFetch, -, nothing⟩ | four⟩ := step_of_error failed
    · exact ⟨pc, reports, here, kept, .inl ⟨atFetch, nothing⟩⟩
    · exact ⟨pc, reports, here, kept, .inr four⟩
  · intro pc index inst here supported placed
    refine ⟨?_, ?_, ?_⟩
    · rw [← Stage.fetchAt_fails_iff supported placed]
      simp only [step_refused_iff here]
    · intro label waits
      exact ((step_refused_iff here).mpr (Stage.fetchAt_of_label supported placed waits)).1
    · intro unlabelled unfinished
      have refused := Stage.fetchAt_of_not_assembled supported placed unlabelled unfinished
      exact ((step_refused_iff here).mpr refused).1
  · intro simulation limit _ stopped
    exact (Simulation.step_of_stepLimit stopped).2.2

/-- A load patched to have the operands of a jump takes their target for an address and fails in
its access; its label, where it still waits for one, is refused before. -/
theorem failed_step_atomic_of_patched :
    let patched (target : Immediate) (assembled : Bool) : Machine :=
      { registers := { slots := Vector.replicate 32 7 }
        text :=
          TextStore.push {} { opcode := .lw, operands := .jump target, line := none, assembled } }
    let loads := patched (.literal 4) true
    let waits := patched (.label "later") false
    (loads.step.1 = .error (.address .memoryAccess (.outOfRange .data 4)) ∧
        loads.step.2.statistics = loads.statistics ∧ loads.step.2.log = loads.log ∧
        loads.step.2.registers = loads.registers ∧
        loads.step.2.trace.toList.map (·.report.stage) =
          [.fetch, .decode, .readOperands, .execute]) ∧
      waits.step.1 = .error (.unresolved 0x00400000 "later") ∧
      ∃ simulation : Simulation, simulation.machine = loads ∧ simulation.step.2 = simulation := by
  intro patched loads waits
  refine ⟨?_, ?_, ?_⟩
  · have failed : loads.step.1 = .error (.address .memoryAccess (.outOfRange .data 4)) := rfl
    obtain ⟨pc, reports, -, kept, ⟨atFetch, -⟩ | ⟨-, four⟩⟩ :=
      (failed_step_atomic loads).1 _ failed
    · cases atFetch
    · rw [kept]
      refine ⟨failed, rfl, rfl, rfl, ?_⟩
      rw [← four]
      show ((#[] : Array TraceBlock) ++ reports.map (loads.block pc)).toList.map _ = _
      simp [block]
  · exact ((failed_step_atomic waits).2.1 0x00400000 0 _ rfl rfl rfl).2.1 "later" rfl
  · let simulation : Simulation := { machine := loads, limit := 0 }
    exact ⟨simulation, rfl, (failed_step_atomic loads).2.2 simulation 0 rfl rfl⟩

end Machine

end TinyMips
