import TinyMips.Proofs.Machine.Counters
import TinyMips.Proofs.Store.Data

/-!
# What a run depends on

Nothing but the text store and the snapshot of a machine decides what it does.

* **snapshots** — they are equal when the architectures agree on all that instructions can read
  (`Machine.snapshot_eq_iff`);
* **steps** — agreeing architectures end a step alike and agree again
  (`Architecture.Agrees.execute`);
* **runs** — so their runs give the same results, warnings and counts, also in counters of 64 bits
  (`Machine.runs_agree`), and tracing can be switched off without any other effect
  (`Machine.untraced_step`).
-/

namespace TinyMips

/-! ## Agreement -/

/-- Whether instructions read the same in two architectures. What the slot of `r0` holds and how
many values were placed in the data is not read. -/
structure Architecture.Agrees (state other : Architecture) : Prop where
  pc : state.pc = other.pc
  read (r : Reg) : state.read r = other.read r
  slots : state.data.slots = other.data.slots

theorem RegisterFile.mem_nonZero {file : RegisterFile} {r : Reg} {value : Word} :
    (r, value) ∈ file.nonZero ↔ file.read r = value ∧ value ≠ 0 := by
  simp [nonZero, Reg.all]

theorem RegisterFile.read_of_nonZero {file other : RegisterFile}
    (h : file.nonZero = other.nonZero) (r : Reg) : file.read r = other.read r := by
  have same (value : Word) :
      file.read r = value ∧ value ≠ 0 ↔ other.read r = value ∧ value ≠ 0 := by
    rw [← mem_nonZero, ← mem_nonZero, h]
  by_cases zero : file.read r = 0
  · by_contra differ
    exact differ ((same _).mpr ⟨rfl, fun both => differ (zero.trans both.symm)⟩).1
  · exact ((same _).mp ⟨rfl, zero⟩).1.symm

/-- Machines have the same snapshot when their architectures agree. -/
theorem Machine.snapshot_eq_iff (machine other : Machine) :
    machine.snapshot = other.snapshot ↔ machine.architecture.Agrees other.architecture := by
  constructor
  · intro h
    exact ⟨congrArg Snapshot.pc h, RegisterFile.read_of_nonZero (congrArg Snapshot.registers h),
      DataStore.slots_eq_of_written (congrArg Snapshot.memory h)⟩
  · intro h
    have pc : machine.pc = other.pc := h.pc
    have read (r : Reg) : machine.registers.read r = other.registers.read r := h.read r
    have slots : machine.data.slots = other.data.slots := h.slots
    unfold snapshot RegisterFile.nonZero DataStore.written
    simp only [pc, read, slots]

namespace Architecture

namespace Agrees

variable {state other : Architecture} (h : state.Agrees other) (fetched : Fetched)
include h

/-! ## Agreement through the stages -/

theorem operandsRead :
    fetched.operandsRead state.registers = fetched.operandsRead other.registers := by
  have read (r : Reg) : state.registers.read r = other.registers.read r := h.read r
  unfold Fetched.operandsRead Stage.readOperandsOf
  simp only [read]

theorem executed : fetched.executed state.registers = fetched.executed other.registers := by
  unfold Fetched.executed
  rw [h.operandsRead]

theorem issued : fetched.issued state.registers = fetched.issued other.registers := by
  unfold Fetched.issued
  rw [h.operandsRead, h.executed]

/-- An access has the same outcome, and leaves data that differ in what was placed only. -/
theorem accessed :
    fetched.accessed other.registers other.data =
      (fetched.accessed state.registers state.data).map fun (accessed, data) =>
        (accessed, { data with placed := other.data.placed }) := by
  have data : other.data = { slots := state.data.slots, placed := other.data.placed } := by
    rw [h.slots]
  unfold Fetched.accessed
  rw [h.operandsRead, h.executed, data]
  unfold Stage.accessMemory DataStore.load DataStore.store
  dsimp only
  cases fetched.signals.mem with
  | none => rfl
  | load | store =>
    dsimp only
    cases Region.data.checkValue (fetched.executed other.registers).result <;> rfl

theorem goTo (pc : Address) : (state.goTo pc).Agrees (other.goTo pc) :=
  ⟨rfl, h.read, h.slots⟩

theorem assign (r : Reg) (value : Word) : (state.assign r value).Agrees (other.assign r value) where
  pc := h.pc
  read q := by rw [read_assign, read_assign, h.read]
  slots := h.slots

theorem retire (result : Word) (accessed : Accessed) :
    (state.retire fetched result accessed).Agrees (other.retire fetched result accessed) := by
  unfold Architecture.retire
  split
  · exact ⟨rfl, h.read, h.slots⟩
  · split
    · exact h.goTo _
    · exact (h.goTo _).assign _ _

end Agrees

end Architecture

/-- Whether two endings differ in nothing but what their architectures do not show. -/
structure Ending.Agrees (ending other : Ending) : Prop where
  result : ending.result = other.result
  state : ending.state.Agrees other.state
  reports : ending.reports = other.reports
  warnings : ending.warnings = other.warnings
  counts : ending.counts = other.counts

theorem Architecture.Agrees.execute {state other : Architecture} (h : state.Agrees other)
    (text : TextStore) (pc : Address) :
    (state.execute text pc).Agrees (other.execute text pc) := by
  unfold Architecture.execute
  cases Stage.fetchAt text pc with
  | error fault => exact ⟨rfl, h, rfl, rfl, rfl⟩
  | ok fetched =>
    dsimp only
    rw [h.accessed, ← h.issued]
    cases fetched.accessed state.registers state.data with
    | error fault => exact ⟨rfl, h, rfl, rfl, rfl⟩
    | ok outcome =>
      obtain ⟨accessed, data⟩ := outcome
      have stored : { state with data }.Agrees
          { other with data := { data with placed := other.data.placed } } :=
        ⟨h.pc, h.read, rfl⟩
      have executed := h.executed fetched
      have issued := h.issued fetched
      unfold Architecture.finish Except.map
      dsimp only
      rw [← executed, ← issued]
      exact ⟨rfl, stored.retire _ _ _, rfl, rfl, rfl⟩

/-! ## Agreement of runs -/

namespace Machine

/-- Whether a machine has warned and counted that much since it was another. -/
structure Gains (machine later : Machine) (warnings : List LogEntry) (counts : Statistics) :
    Prop where
  log : later.log = machine.log.warnAll warnings
  statistics : later.statistics = machine.statistics + counts

theorem Gains.refl (machine : Machine) : machine.Gains machine [] {} where
  log := by simp [Log.warnAll]
  statistics := rfl

theorem Gains.trans {machine later last : Machine} {first second : List LogEntry}
    {counts more : Statistics} (h : machine.Gains later first counts)
    (h' : later.Gains last second more) :
    machine.Gains last (first ++ second) (counts + more) where
  log := by rw [Log.warnAll_append, ← h.log, h'.log]
  statistics := by rw [← Statistics.add_assoc, ← h.statistics, h'.statistics]

/-- Whether two machines are alike in all that decides what they do. -/
structure Alike (machine other : Machine) : Prop where
  text : machine.text = other.text
  agrees : machine.architecture.Agrees other.architecture

variable {machine other : Machine}

theorem Alike.step (h : machine.Alike other) :
    machine.step.1 = other.step.1 ∧ machine.step.2.Alike other.step.2 ∧
      ∃ warnings counts, machine.Gains machine.step.2 warnings counts ∧
        other.Gains other.step.2 warnings counts := by
  have pc : machine.pc = other.pc := h.agrees.pc
  cases here : machine.pc with
  | none =>
    rw [step_of_halted here, step_of_halted (pc.symm.trans here)]
    exact ⟨rfl, h, [], {}, .refl machine, .refl other⟩
  | some pc' =>
    have ends := h.agrees.execute machine.text pc'
    rw [step_eq_adopt here, step_eq_adopt (pc.symm.trans here), ← h.text]
    refine ⟨ends.result, ⟨h.text, ends.state⟩, _, _, ⟨rfl, rfl⟩, ?_⟩
    rw [ends.warnings, ends.counts]
    exact ⟨rfl, rfl⟩

/-- Machines that are alike stay alike, and both gain the same. -/
theorem Alike.after (h : machine.Alike other) (count : Nat) :
    (machine.after count).Alike (other.after count) ∧
      ∃ warnings counts, machine.Gains (machine.after count) warnings counts ∧
        other.Gains (other.after count) warnings counts := by
  induction count with
  | zero => exact ⟨h, [], {}, .refl machine, .refl other⟩
  | succ count ih =>
    obtain ⟨alike, warnings, counts, gained, gained'⟩ := ih
    obtain ⟨-, next, more, moreCounts, gains, gains'⟩ := alike.step
    exact ⟨next, _, _, gained.trans gains, gained'.trans gains'⟩

/-- Whether a machine has warned and counted that much in a number of steps, with counters of 64
bits: they show the counts but for the wrapping, and exactly where they have room for the steps. -/
structure Gains64 (machine : Machine) (count : Nat) (warnings : List LogEntry)
    (counts : Statistics) : Prop where
  log : (machine.after64 count).log = machine.log.warnAll warnings
  wrapped : (machine.after64 count).statistics.wrapped = (machine.statistics + counts).wrapped
  exact : machine.Room count → (machine.after64 count).statistics = machine.statistics + counts

theorem Gains.gains64 {count : Nat} {warnings : List LogEntry} {counts : Statistics}
    (h : machine.Gains (machine.after count) warnings counts) :
    machine.Gains64 count warnings counts := by
  have same := machine.wrapped_after64 count
  have log : (machine.after64 count).wrapped.log = (machine.after count).wrapped.log :=
    congrArg Machine.log same
  have statistics : (machine.after64 count).wrapped.statistics =
      (machine.after count).wrapped.statistics := congrArg Machine.statistics same
  refine ⟨log.trans h.log, statistics.trans ?_, fun room => ?_⟩
  · show (machine.after count).statistics.wrapped = _
    rw [h.statistics]
  · rw [after64_of_room room, h.statistics]

theorem snapshot_after64 (machine : Machine) (count : Nat) :
    (machine.after64 count).snapshot = (machine.after count).snapshot := by
  have same := machine.wrapped_after64 count
  show (machine.after64 count).wrapped.snapshot = _
  rw [same]
  rfl

/-! ## Tracing -/

/-- The machine that keeps no trace. -/
def untraced (machine : Machine) : Machine :=
  { machine with tracing := false, trace := #[] }

theorem untraced_step (machine : Machine) :
    machine.untraced.step = (machine.step.1, machine.step.2.untraced) := by
  cases here : machine.pc with
  | none =>
    rw [step_of_halted here]
    exact step_of_halted here
  | some pc =>
    rw [step_eq_adopt here]
    exact step_eq_adopt here

end Machine

namespace Simulation

/-- The simulation that keeps no trace. -/
def untraced (simulation : Simulation) : Simulation :=
  { simulation with machine := simulation.machine.untraced }

theorem untraced_step (simulation : Simulation) :
    simulation.untraced.step = (simulation.step.1, simulation.step.2.untraced) := by
  rcases Nat.lt_or_ge simulation.machine.steps simulation.limit with room | reached
  · have stepped := simulation.machine.untraced_step
    rw [step_of_room room, show simulation.untraced.step = _ from step_of_room room,
      show simulation.untraced.machine.step = _ from stepped]
    rfl
  · rw [step_of_no_room reached]
    exact step_of_no_room reached

theorem untraced_runFor (simulation : Simulation) (budget : Nat) :
    simulation.untraced.runFor budget =
      ((simulation.runFor budget).1, (simulation.runFor budget).2.untraced) := by
  induction budget generalizing simulation with
  | zero =>
    unfold runFor
    rw [show simulation.untraced.machine.isHalted = simulation.machine.isHalted from rfl]
    split <;> rfl
  | succ budget ih =>
    unfold runFor
    rw [show simulation.untraced.machine.isHalted = simulation.machine.isHalted from rfl,
      untraced_step]
    split
    · rfl
    · obtain ⟨result, next⟩ := simulation.step
      cases result with
      | error fault => rfl
      | ok => exact ih next

end Simulation

namespace Machine

/-- A run depends on the instructions and the snapshot of a machine only. Two machines that share
them give the same results step after step, show the same snapshots and gain the same warnings and
counts, whatever their traces, steps, statistics, warnings and placed values are, also where their
counters of 64 bits wrap. So a simulation without tracing is the same as one with it, apart from the
trace. -/
theorem runs_agree {machine other : Machine} (text : machine.text = other.text)
    (snapshot : machine.snapshot = other.snapshot) :
    (∀ count, (machine.after64 count).step.1 = (other.after64 count).step.1 ∧
        (machine.after64 count).snapshot = (other.after64 count).snapshot ∧
        ∃ warnings counts, machine.Gains64 count warnings counts ∧
          other.Gains64 count warnings counts) ∧
      ∀ (program : Program) (limit : Nat),
        let traced := (Simulation.load program true limit).run
        (Simulation.load program false limit).run = (traced.1, traced.2.untraced) := by
  refine ⟨?_, ?_⟩
  · intro count
    have alike : machine.Alike other := ⟨text, (snapshot_eq_iff machine other).mp snapshot⟩
    obtain ⟨reached, warnings, counts, gained, gained'⟩ := alike.after count
    rw [step_after64, step_after64, snapshot_after64, snapshot_after64]
    exact ⟨reached.step.1, (snapshot_eq_iff _ _).mpr reached.agrees, warnings, counts,
      gained.gains64, gained'.gains64⟩
  · intro program limit
    exact (Simulation.load program true limit).untraced_runFor _

/-- What stands in the slot of `r0`, how many values were placed, and what a machine told and
counted before make no difference: the write to `r0` is refused again and counted once, also by a
counter that goes on at zero. -/
theorem runs_agree_of_discarded_write :
    let inst : Instruction :=
      { opcode := .addi, operands := .immediate 0 0 (.literal 7) .plain, line := some 3
        assembled := true }
    let machine : Machine := { text := TextStore.push {} inst }
    let other : Machine :=
      { machine with
        registers := { slots := (Vector.replicate 32 0).set 0 9 }
        data := { placed := 5 }
        log := Log.warn {} none (.implicitExit 0)
        statistics := { retired := 2 ^ 64 - 1, other := 4 }
        tracing := false
        steps := 2 ^ 64 - 1 }
    machine.text = other.text ∧ machine.snapshot = other.snapshot ∧
      machine.registers.slots ≠ other.registers.slots ∧ machine.Room 1 ∧
      (machine.after64 1).step.1 = (other.after64 1).step.1 ∧
      (machine.after64 1).snapshot = (other.after64 1).snapshot ∧
      (∃ warnings, machine.Gains64 1 warnings { retired := 1, alu := 1, discarded := 1 } ∧
        other.Gains64 1 warnings { retired := 1, alu := 1, discarded := 1 }) ∧
      (other.after64 1).statistics = { alu := 1, other := 4, discarded := 1 } := by
  intro inst machine other
  have snapshot : machine.snapshot = other.snapshot :=
    (snapshot_eq_iff machine other).mpr ⟨rfl, by decide +kernel, rfl⟩
  have room : machine.Room 1 :=
    ⟨by decide, by decide, fun block none => absurd none (Array.not_mem_empty block)⟩
  obtain ⟨result, reached, warnings, counts, gained, gained'⟩ :=
    (@runs_agree machine other rfl snapshot).1 1
  obtain rfl : counts = { retired := 1, alu := 1, discarded := 1 } := by
    have counted : (machine.after64 1).statistics = { retired := 1, alu := 1, discarded := 1 } := by
      decide +kernel
    rw [← counted, gained.exact room]
    exact counts.empty_add.symm
  exact ⟨rfl, snapshot, by decide +kernel, room, result, reached, ⟨warnings, gained, gained'⟩,
    by decide +kernel⟩

end Machine

end TinyMips
