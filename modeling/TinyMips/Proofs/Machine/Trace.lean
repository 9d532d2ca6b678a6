import Mathlib.Data.List.Range
import TinyMips.Proofs.Machine.Limit

/-!
# The shape of a trace

Every stage records its own report, under a count of steps that is raised before the fetch that may
refuse. The trace of a run is regular all the same:

* **one step** — a completed step tells six blocks and goes on where its fifth block says, unless
  its last one is terminal (`Machine.Tells`, `Machine.tells_step`);
* **the run** — the trace is what its steps tell, one after the other (`Machine.trace_after`), so
  the block at an index belongs to the step and the stage that index divided by six gives
  (`Machine.getElem?_trace`);
* **the shape** — numbers, stages and addresses of all blocks (`Machine.TraceShape`), and what a
  fault adds (`Program.trace_shape`).
-/

namespace TinyMips

/-- Rows of one width, laid end to end, are indexed by quotient and remainder. -/
theorem getElem?_flatMap_range {α : Type} {rows : Nat → List α} {width count index : Nat}
    (wide : ∀ row < count, (rows row).length = width) (within : index < width * count) :
    ((List.range count).flatMap rows)[index]? = (rows (index / width))[index % width]? := by
  induction count with
  | zero => simp at within
  | succ count ih =>
    have before : ((List.range count).flatMap rows).length = width * count := by
      rw [List.length_flatMap, List.map_congr_left (g := fun _ => width)]
      · simp [Nat.mul_comm]
      · intro row mem
        exact wide row (Nat.lt_succ_of_lt (List.mem_range.mp mem))
    rw [List.range_succ, List.flatMap_append, List.flatMap_singleton]
    by_cases earlier : index < width * count
    · rw [List.getElem?_append_left (by omega)]
      exact ih (fun row lt => wide row (by omega)) earlier
    · have last : index / width = count :=
        Nat.div_eq_of_lt_le (by rw [Nat.mul_comm]; omega) (by rw [Nat.mul_comm]; exact within)
      have rest : index % width = index - width * count := by
        rw [Nat.mod_def, last]
      rw [List.getElem?_append_right (by omega), before, last, rest]

namespace Machine

/-! ## One step -/

/-- The blocks that the next step adds to a trace. -/
def told (machine : Machine) : List TraceBlock :=
  match machine.pc with
  | none => []
  | some pc => (machine.architecture.execute machine.text pc).reports.map (machine.block pc)

variable {machine : Machine} {pc : Address}

theorem told_eq (here : machine.pc = some pc) :
    machine.told =
      (machine.architecture.execute machine.text pc).reports.map (machine.block pc) := by
  unfold told
  rw [here]

theorem tracing_step (machine : Machine) : machine.step.2.tracing = machine.tracing := by
  cases here : machine.pc with
  | none => rw [step_of_halted here]
  | some pc => rw [step_eq_adopt here]; rfl

theorem trace_step (tracing : machine.tracing = true) :
    machine.step.2.trace.toList = machine.trace.toList ++ machine.told := by
  cases here : machine.pc with
  | none =>
    rw [step_of_halted here]
    unfold told
    rw [here, List.append_nil]
  | some pc =>
    rw [step_eq_adopt here, trace_adopt tracing, Array.toList_appendList, told_eq here]

/-- What a completed step at an address tells, by the report of its access and its last one. -/
structure Tells (machine : Machine) (pc : Address) (accessed : Accessed) (written : WrittenBack) :
    Prop where
  stages : machine.told.map (·.report.stage) = Stage.all
  block (block : TraceBlock) (mem : block ∈ machine.told) :
    block.step = machine.steps + 1 ∧ block.pc = pc
  access : machine.told[4]? = some (machine.block pc (.memoryAccess accessed))
  last : machine.told[5]? = some (machine.block pc (.writeBack written))
  next : machine.step.2.pc = if written = .terminal then none else some accessed.nextPc

theorem tells_step (here : machine.pc = some pc) (ok : machine.step.1 = .ok ()) :
    ∃ accessed written, machine.Tells pc accessed written := by
  have stepped := step_eq_adopt here
  have told := told_eq here
  have ends := machine.architecture.ends_execute machine.text pc
  generalize machine.architecture.execute machine.text pc = ending at stepped told ends
  rw [stepped] at ok
  cases ends with
  | refused => contradiction
  | faulted => contradiction
  | finished fetched accessed data fetch access =>
    let result := (fetched.executed machine.registers).result
    refine ⟨accessed, fetched.written result accessed.access, ?_⟩
    constructor
    · rw [told]
      rfl
    · intro block mem
      rw [told] at mem
      obtain ⟨report, -, rfl⟩ := List.mem_map.mp mem
      exact ⟨rfl, rfl⟩
    · rw [told]
      rfl
    · rw [told]
      rfl
    · rw [stepped]
      show (Architecture.retire _ fetched _ accessed).pc = _
      rw [Architecture.pc_retire]
      unfold Fetched.written
      by_cases terminal : fetched.instruction.opcode.isTerminal = true
      · simp [terminal]
      · cases Stage.destination? fetched.signals.dest fetched.instruction.operands <;>
          simp [terminal]

namespace Tells

variable {accessed : Accessed} {written : WrittenBack} (tells : machine.Tells pc accessed written)
include tells

theorem length : machine.told.length = 6 := by
  rw [← List.length_map (·.report.stage), tells.stages]
  rfl

theorem stage {index : Nat} {block : TraceBlock} (found : machine.told[index]? = some block) :
    Stage.all[index]? = some block.report.stage := by
  rw [← tells.stages, List.getElem?_map, found]
  rfl

/-- The last block of a step is the only one that can be terminal, and then the run ends. -/
theorem of_terminal {index : Nat} {block : TraceBlock}
    (found : machine.told[index]? = some block) (terminal : block.report = .writeBack .terminal) :
    index = 5 ∧ machine.step.2.pc = none := by
  have stage := tells.stage found
  rw [terminal] at stage
  obtain rfl : index = 5 := by
    match index, stage with
    | 5, _ => rfl
  obtain rfl := Option.some.inj (tells.last.symm.trans found)
  obtain rfl := StageReport.writeBack.inj terminal
  exact ⟨rfl, tells.next⟩

end Tells

/-! ## The run -/

theorem tracing_after (tracing : machine.tracing = true) (count : Nat) :
    (machine.after count).tracing = true :=
  after_induction (motive := fun state => state.tracing = true) tracing
    (fun state tracing => (tracing_step state).trans tracing) count

/-- A trace is what the steps of its run tell, one after the other. -/
theorem trace_after (tracing : machine.tracing = true) (count : Nat) :
    (machine.after count).trace.toList =
      machine.trace.toList ++ (List.range count).flatMap fun row => (machine.after row).told := by
  induction count with
  | zero => simp [after]
  | succ count ih =>
    show (machine.after count).step.2.trace.toList = _
    rw [trace_step (tracing_after tracing count), ih, List.range_succ, List.flatMap_append,
      List.flatMap_singleton, List.append_assoc]

/-- Whether a number of steps of a run complete their instructions. -/
def Completes (machine : Machine) (count : Nat) : Prop :=
  ∀ row < count, (machine.after row).isHalted = false ∧ (machine.after row).step.1 = .ok ()

/-- Steps that succeed complete their instructions until the machine has halted, and change nothing
from then on. -/
theorem completes_of_ok {count : Nat}
    (succeeds : ∀ earlier < count, (machine.after earlier).step.1 = .ok ()) :
    ∃ done ≤ count, machine.Completes done ∧ machine.after count = machine.after done ∧
      (done = count ∨ done < count ∧ (machine.after done).isHalted = true) := by
  induction count with
  | zero => exact ⟨0, Nat.le_refl 0, fun row lt => absurd lt row.not_lt_zero, rfl, .inl rfl⟩
  | succ count ih =>
    obtain ⟨done, le, completes, stands, ends⟩ := ih fun earlier lt => succeeds earlier (by omega)
    cases halted : (machine.after count).isHalted with
    | true =>
      have stays : machine.after (count + 1) = machine.after count := by
        show (machine.after count).step.2 = _
        rw [step_of_halted (Option.isNone_iff_eq_none.mp halted)]
      refine ⟨done, by omega, completes, stays.trans stands, .inr ⟨by omega, ?_⟩⟩
      rw [← stands]
      exact halted
    | false =>
      obtain rfl : done = count := by
        rcases ends with all | ⟨-, before⟩
        · exact all
        · rw [← stands, halted] at before
          contradiction
      refine ⟨done + 1, Nat.le_refl _, fun row lt => ?_, rfl, .inl rfl⟩
      by_cases earlier : row < done
      · exact completes row earlier
      · obtain rfl : row = done := by omega
        exact ⟨halted, succeeds row lt⟩

section Completed

variable {count : Nat} (completes : machine.Completes count)
include completes

theorem Completes.tells {row : Nat} (lt : row < count) :
    ∃ pc accessed written,
      (machine.after row).pc = some pc ∧ (machine.after row).Tells pc accessed written := by
  obtain ⟨running, ok⟩ := completes row lt
  obtain ⟨pc, here⟩ := (isHalted_eq_false_iff _).mp running
  obtain ⟨accessed, written, tells⟩ := tells_step here ok
  exact ⟨pc, accessed, written, here, tells⟩

theorem Completes.steps {row : Nat} (le : row ≤ count) :
    (machine.after row).steps = machine.steps + row := by
  cases row with
  | zero => rfl
  | succ row =>
    refine steps_after (completes 0 (by omega)).1 fun last lt => not_stops_iff.mpr ?_
    exact ⟨(completes last (by omega)).2, (completes (last + 1) (by omega)).1⟩

variable (tracing : machine.tracing = true) (untold : machine.trace = #[])
include tracing untold

theorem size_trace : (machine.after count).trace.size = 6 * count := by
  rw [← Array.length_toList, trace_after tracing, untold, List.nil_append, List.length_flatMap,
    List.map_congr_left (g := fun _ => 6)]
  · simp [Nat.mul_comm]
  · intro row mem
    obtain ⟨pc, accessed, written, -, tells⟩ := completes.tells (List.mem_range.mp mem)
    exact tells.length

/-- The block at an index is told by the step that the index belongs to. -/
theorem getElem?_trace {index : Nat} (within : index < 6 * count) :
    (machine.after count).trace[index]? = (machine.after (index / 6)).told[index % 6]? := by
  rw [← Array.getElem?_toList, trace_after tracing, untold, List.nil_append]
  refine getElem?_flatMap_range (fun row lt => ?_) within
  obtain ⟨pc, accessed, written, -, tells⟩ := completes.tells lt
  exact tells.length

theorem told_of_trace {index : Nat} {block : TraceBlock}
    (found : (machine.after count).trace[index]? = some block) :
    index / 6 < count ∧ (machine.after (index / 6)).told[index % 6]? = some block := by
  obtain ⟨within, -⟩ := Array.getElem?_eq_some_iff.mp found
  rw [size_trace completes tracing untold] at within
  rw [getElem?_trace completes tracing untold within] at found
  exact ⟨by omega, found⟩

theorem terminal_of_trace {index : Nat} {block : TraceBlock}
    (found : (machine.after count).trace[index]? = some block)
    (terminal : block.report = .writeBack .terminal) :
    index + 1 = 6 * count ∧ (machine.after count).pc = none := by
  obtain ⟨lt, found⟩ := told_of_trace completes tracing untold found
  obtain ⟨pc, accessed, written, here, tells⟩ := completes.tells lt
  obtain ⟨fifth, ends⟩ := tells.of_terminal found terminal
  -- a step after the terminal one would start from a halted machine
  have final : index / 6 + 1 = count := by
    by_contra more
    obtain ⟨running, -⟩ := completes (index / 6 + 1) (by omega)
    obtain ⟨next, goes⟩ := (isHalted_eq_false_iff _).mp running
    exact absurd (goes.symm.trans ends) nofun
  exact ⟨by omega, final ▸ ends⟩

theorem terminal_of_halted (running : machine.isHalted = false)
    (halted : (machine.after count).isHalted = true) :
    ∃ block ∈ (machine.after count).trace, block.report = .writeBack .terminal := by
  cases count with
  | zero => exact absurd (running.symm.trans halted) Bool.false_ne_true
  | succ row =>
    obtain ⟨pc, accessed, written, -, tells⟩ := completes.tells row.lt_succ_self
    have ends : (machine.after row).step.2.pc = none := Option.isNone_iff_eq_none.mp halted
    rw [tells.next] at ends
    split at ends
    · next terminal =>
      subst terminal
      have within : 6 * row + 5 < 6 * (row + 1) := by omega
      have placed := getElem?_trace completes tracing untold within
      rw [show (6 * row + 5) / 6 = row by omega, show (6 * row + 5) % 6 = 5 by omega,
        tells.last] at placed
      exact ⟨_, Array.mem_of_getElem? placed, rfl⟩
    · contradiction

end Completed

/-! ## The shape -/

/-- The shape of the trace of steps that completed. -/
structure TraceShape (machine : Machine) : Prop where
  /-- Six blocks for each step. -/
  size : machine.trace.size = 6 * machine.steps
  /-- Steps are numbered from one, and the stages of each come in order. -/
  position {index : Nat} {block : TraceBlock} (found : machine.trace[index]? = some block) :
    block.step = index / 6 + 1 ∧ Stage.all[index % 6]? = some block.report.stage
  /-- The blocks of a step share the address of its first one. -/
  address {index : Nat} {block first : TraceBlock} (found : machine.trace[index]? = some block)
    (begins : machine.trace[6 * (index / 6)]? = some first) : block.pc = first.pc
  /-- The first step is at the first instruction. -/
  start {block : TraceBlock} (found : machine.trace[0]? = some block) : block.pc = 0x00400000
  /-- A later step is where the access of the step before it says. -/
  chained {row : Nat} {block next : TraceBlock} (found : machine.trace[6 * row + 4]? = some block)
    (follows : machine.trace[6 * (row + 1)]? = some next) :
    ∃ accessed, block.report = .memoryAccess accessed ∧ next.pc = accessed.nextPc
  /-- Only the last block can be terminal. -/
  last {index : Nat} {block : TraceBlock} (found : machine.trace[index]? = some block)
    (terminal : block.report = .writeBack .terminal) : index + 1 = machine.trace.size
  /-- There is a terminal block once the machine has halted, and not before. -/
  terminal : (∃ block ∈ machine.trace, block.report = .writeBack .terminal) ↔
    machine.isHalted = true

theorem traceShape_after {program : Program} {count : Nat}
    (completes : (load program true).Completes count) :
    ((load program true).after count).TraceShape := by
  have steps {row : Nat} (le : row ≤ count) : ((load program true).after row).steps = row := by
    rw [completes.steps le]
    exact Nat.zero_add row
  constructor
  · rw [size_trace completes rfl rfl, steps (Nat.le_refl count)]
  · intro index block found
    obtain ⟨lt, found⟩ := told_of_trace completes rfl rfl found
    obtain ⟨pc, accessed, written, here, tells⟩ := completes.tells lt
    refine ⟨?_, tells.stage found⟩
    rw [(tells.block block (List.mem_of_getElem? found)).1, steps (by omega)]
  · intro index block first found begins
    obtain ⟨lt, found⟩ := told_of_trace completes rfl rfl found
    obtain ⟨-, begins⟩ := told_of_trace completes rfl rfl begins
    rw [Nat.mul_div_cancel_left _ (by omega)] at begins
    obtain ⟨pc, accessed, written, here, tells⟩ := completes.tells lt
    rw [(tells.block block (List.mem_of_getElem? found)).2,
      (tells.block first (List.mem_of_getElem? begins)).2]
  · intro block found
    obtain ⟨lt, found⟩ := told_of_trace completes rfl rfl found
    obtain ⟨pc, accessed, written, here, tells⟩ := completes.tells lt
    rw [(tells.block block (List.mem_of_getElem? found)).2]
    exact Option.some.inj here.symm
  · intro row block next found follows
    obtain ⟨lt, found⟩ := told_of_trace completes rfl rfl found
    obtain ⟨lt', follows⟩ := told_of_trace completes rfl rfl follows
    rw [show (6 * row + 4) / 6 = row by omega] at lt found
    rw [show (6 * row + 4) % 6 = 4 by omega] at found
    rw [Nat.mul_div_cancel_left _ (by omega)] at lt' follows
    obtain ⟨pc, accessed, written, here, tells⟩ := completes.tells lt
    obtain ⟨pc', accessed', written', here', tells'⟩ := completes.tells lt'
    obtain rfl := Option.some.inj (tells.access.symm.trans found)
    refine ⟨accessed, rfl, ?_⟩
    rw [(tells'.block next (List.mem_of_getElem? follows)).2]
    have goes := tells.next.symm.trans here'
    split at goes
    · contradiction
    · exact (Option.some.inj goes).symm
  · intro index block found terminal
    rw [size_trace completes rfl rfl]
    exact (terminal_of_trace completes rfl rfl found terminal).1
  · constructor
    · rintro ⟨block, mem, terminal⟩
      obtain ⟨index, found⟩ := Array.getElem?_of_mem mem
      rw [isHalted, (terminal_of_trace completes rfl rfl found terminal).2]
      rfl
    · exact terminal_of_halted completes rfl rfl rfl

end Machine

namespace Program

/-- The trace of a traced run after a number of steps that succeeded. It has the shape of as many
steps, or of those up to the one that halted the machine, where later ones changed nothing. A fault
of the next step adds no block if it is on the side of the fetch, and those of the first four
stages if it is on the side of the memory. -/
theorem trace_shape (program : Program) (count : Nat)
    (succeeds : ∀ earlier < count,
      ((Machine.load program true).after earlier).step.1 = .ok ()) :
    let start := Machine.load program true
    let machine := start.after count
    (machine.steps = count ∨
        machine.steps < count ∧ (start.after machine.steps).isHalted = true) ∧
      machine.TraceShape ∧
      ∀ fault, machine.step.1 = .error fault →
        ∃ (pc : Address) (blocks : List TraceBlock), machine.pc = some pc ∧
          machine.step.2.trace = machine.trace ++ blocks ∧
          (∀ block ∈ blocks, block.step = count + 1 ∧ block.pc = pc) ∧
          (fault.AtFetch pc ∧ blocks = [] ∨
            (∃ error, fault = .address .memoryAccess error) ∧
              blocks.map (·.report.stage) = [.fetch, .decode, .readOperands, .execute]) := by
  intro start machine
  obtain ⟨done, le, completes, stands, ends⟩ := Machine.completes_of_ok succeeds
  have stands : machine = start.after done := stands
  have steps : machine.steps = done := by
    rw [stands, completes.steps (Nat.le_refl done)]
    exact Nat.zero_add done
  refine ⟨?_, ?_, ?_⟩
  · rw [steps]
    exact ends
  · rw [stands]
    exact Machine.traceShape_after completes
  · intro fault failed
    obtain ⟨pc, reports, here, kept, side⟩ := Machine.step_of_error failed
    have running : machine.isHalted = false := by rw [Machine.isHalted, here]; rfl
    have all : done = count := by
      rcases ends with all | ⟨-, halted⟩
      · exact all
      · have halted : machine.isHalted = true := stands ▸ halted
        exact absurd (running.symm.trans halted) Bool.false_ne_true
    refine ⟨pc, reports.map (machine.block pc), here, ?_, ?_, ?_⟩
    · rw [kept]
      exact if_pos (Machine.tracing_after rfl count)
    · intro block mem
      obtain ⟨report, -, rfl⟩ := List.mem_map.mp mem
      refine ⟨?_, rfl⟩
      show machine.steps + 1 = count + 1
      rw [steps, all]
    · rcases side with ⟨atFetch, -, rfl⟩ | ⟨access, stages⟩
      · exact .inl ⟨atFetch, rfl⟩
      · refine .inr ⟨access, ?_⟩
        rw [← stages, List.map_map]
        rfl

/-- A taken branch skips an exit to a load that its address refuses: six blocks of the branch, no
terminal one among them, and the first four of the load at the target. -/
theorem trace_shape_of_skipped_exit :
    let branch : Instruction :=
      { opcode := .beq, operands := .immediate 0 0 (.literal 1) .plain, line := none
        assembled := true }
    let load : Instruction := { branch with opcode := .lw }
    let program : Program :=
      { text :=
          ((TextStore.push {} branch).push { branch with opcode := .exit, operands := .none }).push
            load }
    let machine := (Machine.load program true).after 1
    (∀ earlier < 1, ((Machine.load program true).after earlier).step.1 = .ok ()) ∧
      machine.TraceShape ∧ machine.steps = 1 ∧
      machine.step.1 = .error (.address .memoryAccess (.outOfRange .data 1)) ∧
      ∃ blocks : List TraceBlock, machine.step.2.trace = machine.trace ++ blocks ∧
        blocks.length = 4 ∧ ∀ block ∈ blocks, block.step = 2 ∧ block.pc = 0x00400008 := by
  intro branch load program
  dsimp only
  have succeeds : ∀ earlier < 1,
      ((Machine.load program true).after earlier).step.1 = .ok () := by
    decide +kernel
  have failed : ((Machine.load program true).after 1).step.1 =
      .error (.address .memoryAccess (.outOfRange .data 1)) := by
    decide +kernel
  have target : ((Machine.load program true).after 1).pc = some 0x00400008 := by decide +kernel
  obtain ⟨ends, shape, faults⟩ := trace_shape program 1 succeeds
  have steps : ((Machine.load program true).after 1).steps = 1 := by
    rcases ends with steps | ⟨-, halted⟩
    · exact steps
    · exact absurd halted (by decide +kernel)
  obtain ⟨pc, blocks, here, kept, told, ⟨atFetch, -⟩ | ⟨-, four⟩⟩ := faults _ failed
  · cases atFetch
  · obtain rfl := Option.some.inj (target.symm.trans here)
    refine ⟨succeeds, shape, steps, failed, blocks, kept, ?_, told⟩
    rw [← List.length_map (·.report.stage), four]
    rfl

end Program

end TinyMips
