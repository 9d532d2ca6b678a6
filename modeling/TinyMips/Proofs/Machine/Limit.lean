import Mathlib.Order.Lattice.Nat
import TinyMips.Proofs.Machine.Atomicity
import TinyMips.Proofs.Machine.Run

/-!
# Runs under a limit

A simulation steps its machine until the machine halts, a step fails, or the limit is reached.

* **the loop** — `Simulation.Runs` is that loop without any bound on its rounds, and
  `Simulation.run` is its only outcome (`Simulation.runs_iff`);
* **where it stops** — at the first step that fails or halts, if the limit allows it, and else at
  the limit (`Simulation.run_of_first_stop`, `Simulation.run_of_no_stop`);
* **what it counts** — no counter runs ahead of the steps (`Machine.counted_after_load`), and a
  smaller limit gives the same run or its beginning (`Program.run_limited`).
-/

namespace TinyMips

/-! ## The loop -/

namespace Simulation

/-- The loop of a simulation, with its result and the simulation that it leaves. -/
inductive Runs : Simulation → Except Fault Unit → Simulation → Prop where
  | halted {simulation : Simulation} (halted : simulation.machine.isHalted = true) :
    Runs simulation (.ok ()) simulation
  | fails {simulation next : Simulation} {fault : Fault}
    (running : simulation.machine.isHalted = false)
    (failed : simulation.step = (.error fault, next)) : Runs simulation (.error fault) next
  | steps {simulation next final : Simulation} {result : Except Fault Unit}
    (running : simulation.machine.isHalted = false)
    (stepped : simulation.step = (.ok (), next)) (rest : Runs next result final) :
    Runs simulation result final

theorem Runs.unique {simulation final final' : Simulation} {result result' : Except Fault Unit}
    (h : simulation.Runs result final) (h' : simulation.Runs result' final') :
    result = result' ∧ final = final' := by
  -- each way to go on rules out the other two
  induction h with
  | halted halted =>
    cases h' with
    | halted => exact ⟨rfl, rfl⟩
    | fails running | steps running => simp [halted] at running
  | fails running failed =>
    cases h' with
    | halted halted => simp [halted] at running
    | fails _ failed' =>
      obtain ⟨fault, next⟩ := Prod.mk.inj (failed.symm.trans failed')
      exact ⟨fault, next⟩
    | steps _ stepped =>
      exact absurd (congrArg Prod.fst (failed.symm.trans stepped)) nofun
  | steps running stepped rest ih =>
    cases h' with
    | halted halted => simp [halted] at running
    | fails _ failed => exact absurd (congrArg Prod.fst (failed.symm.trans stepped)) nofun
    | steps _ stepped' rest' =>
      obtain rfl := congrArg Prod.snd (stepped.symm.trans stepped')
      exact ih rest'

end Simulation

namespace Machine

theorem isHalted_eq_false_iff (machine : Machine) :
    machine.isHalted = false ↔ ∃ pc, machine.pc = some pc := by
  unfold isHalted
  cases machine.pc <;> simp

theorem steps_step {machine : Machine} (running : machine.isHalted = false) :
    machine.step.2.steps = machine.steps + 1 := by
  obtain ⟨pc, here⟩ := (isHalted_eq_false_iff machine).mp running
  rw [step_eq_adopt here]
  rfl

end Machine

namespace Simulation

variable {simulation : Simulation}

theorem step_of_room (room : simulation.machine.steps < simulation.limit) :
    simulation.step =
      (simulation.machine.step.1, { simulation with machine := simulation.machine.step.2 }) := by
  unfold step
  rw [if_neg (by omega)]

theorem step_of_no_room (reached : simulation.limit ≤ simulation.machine.steps) :
    simulation.step = (.error (.stepLimit simulation.limit), simulation) := by
  unfold step
  rw [if_pos reached]

theorem runs_runFor (budget : Nat)
    (left : simulation.limit - simulation.machine.steps = budget) :
    simulation.Runs (simulation.runFor budget).1 (simulation.runFor budget).2 := by
  -- every started step takes one off what is left of the limit, also one that fails
  induction budget generalizing simulation with
  | zero =>
    unfold runFor
    cases running : simulation.machine.isHalted with
    | true => exact .halted running
    | false =>
      rw [if_neg (by simp)]
      exact .fails running (step_of_no_room (by omega))
  | succ budget ih =>
    unfold runFor
    cases running : simulation.machine.isHalted with
    | true => exact .halted running
    | false =>
      rw [if_neg (by simp)]
      have stepped : simulation.step =
          (simulation.machine.step.1, { simulation with machine := simulation.machine.step.2 }) :=
        step_of_room (by omega)
      rw [stepped]
      cases result : simulation.machine.step.1 with
      | error fault =>
        rw [result] at stepped
        exact .fails running stepped
      | ok =>
        rw [result] at stepped
        refine .steps running stepped (ih ?_)
        have counted := Machine.steps_step running
        show simulation.limit - simulation.machine.step.2.steps = budget
        omega

/-- The loop ends, and what `run` computes is its outcome. -/
theorem runs_iff {result : Except Fault Unit} {final : Simulation} :
    simulation.Runs result final ↔ simulation.run = (result, final) := by
  have computed : simulation.Runs simulation.run.1 simulation.run.2 := runs_runFor _ rfl
  constructor
  · intro runs
    obtain ⟨sameResult, sameFinal⟩ := computed.unique runs
    exact Prod.ext sameResult sameFinal
  · intro ran
    rw [ran] at computed
    exact computed

end Simulation

/-! ## Where the loop stops -/

namespace Machine

/-- Whether a step ends a run: it fails, or it leaves a halted machine. -/
def Stops (machine : Machine) : Prop :=
  machine.step.1 ≠ .ok () ∨ machine.step.2.isHalted = true

/-- The numbers, from one, of the steps that end a run. -/
def stops (machine : Machine) : Set Nat :=
  {count | ∃ last, count = last + 1 ∧ (machine.after last).Stops}

variable {machine : Machine}

theorem not_stops_iff :
    ¬machine.Stops ↔ machine.step.1 = .ok () ∧ machine.step.2.isHalted = false := by
  simp [Stops]

theorem not_stops_of_lt {least last : Nat} (h : IsLeast machine.stops least)
    (lt : last + 1 < least) : ¬(machine.after last).Stops := by
  intro stops
  have := h.2 ⟨last, rfl, stops⟩
  omega

/-- Where no first stop is within a limit, there is no stop within it. -/
theorem not_stops_of_limit {limit last : Nat}
    (h : ∀ least, IsLeast machine.stops least → limit < least) (lt : last < limit) :
    ¬(machine.after last).Stops := by
  intro stops
  have stop : last + 1 ∈ machine.stops := ⟨last, rfl, stops⟩
  have := h _ ⟨Nat.sInf_mem ⟨_, stop⟩, fun _ other => Nat.sInf_le other⟩
  have := Nat.sInf_le stop
  omega

theorem after_add (machine : Machine) (first second : Nat) :
    (machine.after first).after second = machine.after (first + second) := by
  induction second with
  | zero => rfl
  | succ second ih => exact congrArg (fun reached => reached.step.2) ih

section Going

variable {count : Nat} (running : machine.isHalted = false)
include running

theorem isHalted_after (goes : ∀ last < count, ¬(machine.after last).Stops) :
    (machine.after count).isHalted = false := by
  cases count with
  | zero => exact running
  | succ last => exact (not_stops_iff.mp (goes last (by omega))).2

theorem steps_after (goes : ∀ last, last + 1 < count → ¬(machine.after last).Stops) :
    (machine.after count).steps = machine.steps + count := by
  induction count with
  | zero => rfl
  | succ last ih =>
    have counted := ih fun other lt => goes other (by omega)
    have runningThere : (machine.after last).isHalted = false :=
      isHalted_after running fun other lt => goes other (by omega)
    show (machine.after last).step.2.steps = _
    rw [steps_step runningThere, counted, Nat.add_assoc]

end Going

end Machine

namespace Simulation

variable {simulation : Simulation}

def advance (simulation : Simulation) (count : Nat) : Simulation :=
  { simulation with machine := simulation.machine.after count }

theorem step_advance {last : Nat} (running : simulation.machine.isHalted = false)
    (goes : ∀ other < last, ¬(simulation.machine.after other).Stops)
    (room : simulation.machine.steps + last < simulation.limit) :
    (simulation.advance last).step =
      ((simulation.machine.after last).step.1, simulation.advance (last + 1)) := by
  apply step_of_room
  show (simulation.machine.after last).steps < simulation.limit
  rw [Machine.steps_after running fun other lt => goes other (by omega)]
  exact room

/-- The loop goes on from where it is after steps that do not stop it. -/
theorem runs_of_advance {count : Nat} {result : Except Fault Unit} {final : Simulation}
    (running : simulation.machine.isHalted = false)
    (goes : ∀ last < count, ¬(simulation.machine.after last).Stops)
    (room : simulation.machine.steps + count ≤ simulation.limit)
    (rest : (simulation.advance count).Runs result final) : simulation.Runs result final := by
  -- the last of the steps is put back in front of the rest
  induction count generalizing result final with
  | zero => exact rest
  | succ last ih =>
    have earlier (other : Nat) (lt : other < last) :
        ¬(simulation.machine.after other).Stops := goes other (by omega)
    refine ih earlier (by omega) (.steps (Machine.isHalted_after running earlier) ?_ rest)
    rw [step_advance running earlier (by omega)]
    exact Prod.ext (Machine.not_stops_iff.mp (goes last (by omega))).1 rfl

/-- A run ends at its first stop, if the limit leaves room for it. -/
theorem run_of_first_stop {least : Nat} (running : simulation.machine.isHalted = false)
    (first : IsLeast simulation.machine.stops least)
    (room : simulation.machine.steps + least ≤ simulation.limit) :
    simulation.run =
      ((simulation.machine.after (least - 1)).step.1, simulation.advance least) := by
  obtain ⟨last, rfl, stops⟩ := first.1
  have goes (other : Nat) (lt : other < last) : ¬(simulation.machine.after other).Stops :=
    Machine.not_stops_of_lt first (by omega)
  have stepped := step_advance running goes (by omega)
  have runningThere := Machine.isHalted_after running goes
  apply runs_iff.mp
  apply runs_of_advance running goes (by omega)
  rw [Nat.add_sub_cancel]
  cases result : (simulation.machine.after last).step.1 with
  | error fault => exact .fails runningThere (stepped.trans (Prod.ext result rfl))
  | ok =>
    refine .steps runningThere (stepped.trans (Prod.ext result rfl)) (.halted ?_)
    rcases stops with failed | halted
    · exact absurd result failed
    · exact halted

theorem run_of_no_stop {room : Nat} (running : simulation.machine.isHalted = false)
    (goes : ∀ last < room, ¬(simulation.machine.after last).Stops)
    (left : simulation.machine.steps + room = simulation.limit) :
    simulation.run = (.error (.stepLimit simulation.limit), simulation.advance room) := by
  have counted : (simulation.machine.after room).steps = simulation.machine.steps + room :=
    Machine.steps_after running fun last lt => goes last (by omega)
  apply runs_iff.mp
  apply runs_of_advance running goes (by omega)
  refine .fails (Machine.isHalted_after running goes) (step_of_no_room ?_)
  show simulation.limit ≤ (simulation.machine.after room).steps
  omega

theorem run_cases (simulation : Simulation) (fresh : simulation.machine.steps = 0)
    (running : simulation.machine.isHalted = false) :
    (∃ least ≤ simulation.limit, IsLeast simulation.machine.stops least ∧
        simulation.run =
          ((simulation.machine.after (least - 1)).step.1, simulation.advance least)) ∨
      (∀ least, IsLeast simulation.machine.stops least → simulation.limit < least) ∧
        simulation.run =
          (.error (.stepLimit simulation.limit), simulation.advance simulation.limit) := by
  by_cases within : ∃ least ≤ simulation.limit, IsLeast simulation.machine.stops least
  · obtain ⟨least, le, first⟩ := within
    exact .inl ⟨least, le, first, run_of_first_stop running first (by omega)⟩
  · have beyond (least : Nat) (first : IsLeast simulation.machine.stops least) :
        simulation.limit < least :=
      Nat.not_le.mp fun le => within ⟨least, le, first⟩
    exact .inr ⟨beyond, run_of_no_stop running
      (fun last lt => Machine.not_stops_of_limit beyond lt) (by omega)⟩

section Fresh

variable (simulation : Simulation) (fresh : simulation.machine.steps = 0)
  (running : simulation.machine.isHalted = false)
include fresh running

/-- A run goes through the steps up to its first stop, and through no more than the limit. -/
theorem exists_advance :
    ∃ count ≤ simulation.limit, simulation.run.2 = simulation.advance count ∧
      ∀ last, last + 1 < count → ¬(simulation.machine.after last).Stops := by
  rcases simulation.run_cases fresh running with ⟨least, le, first, ran⟩ | ⟨beyond, ran⟩
  · exact ⟨least, le, congrArg Prod.snd ran, fun last lt => Machine.not_stops_of_lt first lt⟩
  · exact ⟨_, Nat.le_refl _, congrArg Prod.snd ran,
      fun last lt => Machine.not_stops_of_limit beyond (by omega)⟩

/-- A run that stops below its limit is the same under any larger one. -/
theorem run_of_larger {bound : Nat} (le : bound ≤ simulation.limit)
    (ended : { simulation with limit := bound }.run.1 ≠ .error (.stepLimit bound)) :
    simulation.run.1 = { simulation with limit := bound }.run.1 ∧
      simulation.run.2.machine = { simulation with limit := bound }.run.2.machine := by
  rcases run_cases { simulation with limit := bound } fresh running with
    ⟨least, within, first, ran⟩ | ⟨-, ran⟩
  · have longer := run_of_first_stop running first
      (by show simulation.machine.steps + least ≤ _; have : least ≤ bound := within; omega)
    rw [longer, ran]
    exact ⟨rfl, rfl⟩
  · exact absurd (congrArg Prod.fst ran) ended

/-- A run that its limit cuts short is the beginning of the run under any larger one. -/
theorem after_of_larger {bound : Nat} (le : bound ≤ simulation.limit)
    (cut : { simulation with limit := bound }.run.1 = .error (.stepLimit bound)) :
    ∃ more, simulation.run.2.machine =
      { simulation with limit := bound }.run.2.machine.after more := by
  rcases run_cases { simulation with limit := bound } fresh running with
    ⟨least, -, -, ran⟩ | ⟨beyond, ran⟩
  · rw [ran] at cut
    exact absurd cut (Machine.step_ne_stepLimit _ _)
  · have reached (count : Nat) (lt : bound ≤ count)
        (stands : simulation.run.2 = simulation.advance count) :
        simulation.run.2.machine =
          { simulation with limit := bound }.run.2.machine.after (count - bound) := by
      rw [ran, stands]
      show simulation.machine.after count = (simulation.machine.after bound).after _
      rw [Machine.after_add, Nat.add_sub_cancel' lt]
    rcases simulation.run_cases fresh running with ⟨least, -, first, longer⟩ | ⟨-, longer⟩
    · exact ⟨_, reached least (Nat.le_of_lt (beyond least first)) (congrArg Prod.snd longer)⟩
    · exact ⟨_, reached simulation.limit le (congrArg Prod.snd longer)⟩

end Fresh

end Simulation

/-! ## What a run counts and tells -/

namespace Machine

/-- Whether every completed instruction of a machine was a step and is counted once. -/
structure Tallied (machine : Machine) : Prop where
  balanced : machine.statistics.Balanced
  retired_le : machine.statistics.retired ≤ machine.steps

theorem tallied_load (program : Program) (tracing : Bool) : (load program tracing).Tallied :=
  ⟨Statistics.balanced_empty, Nat.le_refl 0⟩

theorem Tallied.step {machine : Machine} (h : machine.Tallied) : machine.step.2.Tallied := by
  cases here : machine.pc with
  | none =>
    rw [step_of_halted here]
    exact h
  | some pc =>
    rw [step_eq_adopt here]
    obtain ⟨one, balanced⟩ := (machine.architecture.ends_execute machine.text pc).balanced
    exact ⟨h.balanced.add balanced, Nat.add_le_add h.retired_le one⟩

theorem Tallied.counters_le_steps {machine : Machine} (h : machine.Tallied) :
    ∀ counter ∈ machine.statistics.counters, counter ≤ machine.steps := by
  intro counter mem
  exact Nat.le_trans (h.balanced.le_retired counter mem) h.retired_le

/-- Up to its first stop a run has made as many steps as it counts, and nothing more often. -/
theorem counted_after_load (program : Program) (tracing : Bool) {count : Nat}
    (goes : ∀ last, last + 1 < count → ¬((load program tracing).after last).Stops) :
    ((load program tracing).after count).steps = count ∧
      ∀ counter ∈ ((load program tracing).after count).statistics.counters, counter ≤ count := by
  have steps : ((load program tracing).after count).steps = 0 + count := steps_after rfl goes
  have tallied : ((load program tracing).after count).Tallied :=
    after_induction (tallied_load program tracing) (fun _ tallied => tallied.step) count
  rw [Nat.zero_add] at steps
  refine ⟨steps, ?_⟩
  intro counter mem
  rw [← steps]
  exact tallied.counters_le_steps counter mem

theorem trace_prefix_after (machine : Machine) (count : Nat) :
    machine.trace.toList <+: (machine.after count).trace.toList := by
  induction count with
  | zero => exact List.prefix_rfl
  | succ count ih =>
    refine ih.trans ?_
    show _ <+: (machine.after count).step.2.trace.toList
    cases here : (machine.after count).pc with
    | none => rw [step_of_halted here]
    | some pc =>
      rw [step_eq_adopt here]
      unfold adopt
      dsimp only
      split
      · rw [Array.toList_appendList]
        exact List.prefix_append _ _
      · exact List.prefix_rfl

theorem ok_iff_halted {machine : Machine} (stops : machine.Stops) :
    machine.step.1 = .ok () ↔ machine.step.2.isHalted = true := by
  constructor
  · intro ok
    rcases stops with failed | halted
    · exact absurd ok failed
    · exact halted
  · intro halted
    cases result : machine.step.1 with
    | ok => rfl
    | error fault =>
      -- a failed step keeps the program counter that it started from
      obtain ⟨pc, reports, here, kept, -⟩ := step_of_error result
      rw [kept] at halted
      simp [isHalted, here] at halted

end Machine

namespace Program

/-- A run always ends. With `k` the number of the first step that fails or halts when nothing
limits the steps, it ends after `k` steps with what that step gave, if the limit is at least `k`,
and else at the limit, after as many steps that succeeded. So no counter overflows, and under a
smaller limit a run is the same, or its own limit cuts it short. -/
theorem run_limited (program : Program) (tracing : Bool) (limit : UInt64) :
    let start := Machine.load program tracing
    let simulation := Simulation.load program tracing limit.toNat
    (∀ result final, simulation.Runs result final ↔ simulation.run = (result, final)) ∧
      (∀ k, IsLeast start.stops k → k ≤ limit.toNat →
        simulation.run = ((start.after (k - 1)).step.1, simulation.advance k) ∧
          (simulation.run.1 = .ok () ↔ (start.after k).isHalted = true)) ∧
      ((∀ k, IsLeast start.stops k → limit.toNat < k) →
        simulation.run = (.error (.stepLimit limit.toNat), simulation.advance limit.toNat) ∧
          ∀ last < limit.toNat, (start.after last).step.1 = .ok ()) ∧
      (∃ count ≤ limit.toNat, simulation.run.2 = simulation.advance count ∧
        ∀ earlier ≤ count, (start.after earlier).steps = earlier ∧ earlier < 2 ^ 64 ∧
          ∀ counter ∈ (start.after earlier).statistics.counters, counter ≤ earlier) ∧
      ∀ bound ≤ limit,
        let short := Simulation.load program tracing bound.toNat
        (short.run.1 ≠ .error (.stepLimit bound.toNat) →
          simulation.run.1 = short.run.1 ∧
            simulation.run.2.machine = short.run.2.machine) ∧
        (short.run.1 = .error (.stepLimit bound.toNat) →
          (∃ more, simulation.run.2.machine = short.run.2.machine.after more) ∧
            short.run.2.machine.trace.toList <+: simulation.run.2.machine.trace.toList) := by
  intro start simulation
  have running : start.isHalted = false := rfl
  refine ⟨fun result final => Simulation.runs_iff, ?_, ?_, ?_, ?_⟩
  · intro k first room
    have ran : simulation.run = ((start.after (k - 1)).step.1, simulation.advance k) :=
      Simulation.run_of_first_stop running first (by show 0 + k ≤ limit.toNat; omega)
    refine ⟨ran, ?_⟩
    obtain ⟨last, rfl, stops⟩ := first.1
    rw [ran]
    exact Machine.ok_iff_halted stops
  · intro beyond
    have goes (last : Nat) (lt : last < limit.toNat) : ¬(start.after last).Stops :=
      Machine.not_stops_of_limit beyond lt
    refine ⟨?_, fun last lt => (Machine.not_stops_iff.mp (goes last lt)).1⟩
    exact Simulation.run_of_no_stop running goes (Nat.zero_add _)
  · obtain ⟨count, le, stands, goes⟩ :=
      simulation.exists_advance rfl running
    replace le : count ≤ limit.toNat := le
    refine ⟨count, le, stands, fun earlier before => ?_⟩
    have goesThere (last : Nat) (lt : last + 1 < earlier) : ¬(start.after last).Stops :=
      goes last (by omega)
    obtain ⟨steps, counters⟩ := Machine.counted_after_load program tracing goesThere
    have small := limit.toNat_lt
    exact ⟨steps, by omega, counters⟩
  · intro bound le short
    have le' : bound.toNat ≤ simulation.limit := le
    refine ⟨simulation.run_of_larger rfl running le', fun cut => ?_⟩
    obtain ⟨more, reached⟩ := simulation.after_of_larger rfl running le' cut
    refine ⟨⟨more, reached⟩, ?_⟩
    rw [reached]
    exact Machine.trace_prefix_after _ more

/-- A limit of two is just enough for two instructions, and a limit of one cuts them short. -/
theorem run_limited_of_nop_exit :
    let nop : Instruction := { opcode := .nop, operands := .none, line := none, assembled := true }
    let program : Program := { text := (TextStore.push {} nop).push { nop with opcode := .exit } }
    IsLeast (Machine.load program true).stops 2 ∧
      (Simulation.load program true (2 : UInt64).toNat).run.1 = .ok () ∧
      (Simulation.load program true (1 : UInt64).toNat).run.1 = .error (.stepLimit 1) ∧
      (Simulation.load program true (1 : UInt64).toNat).run.2.machine.trace.toList <+:
        (Simulation.load program true (2 : UInt64).toNat).run.2.machine.trace.toList := by
  intro nop program
  have first : IsLeast (Machine.load program true).stops 2 := by
    refine ⟨⟨1, rfl, .inr (by decide +kernel)⟩, ?_⟩
    rintro count ⟨last, rfl, stops⟩
    cases last with
    | zero => exact absurd stops (Machine.not_stops_iff.mpr (by decide +kernel))
    | succ last => omega
  have cut : (Simulation.load program true (1 : UInt64).toNat).run.1 = .error (.stepLimit 1) := by
    decide +kernel
  obtain ⟨-, ends, -, -, shorter⟩ := run_limited program true 2
  obtain ⟨-, beginning⟩ := (shorter 1 (by decide)).2 cut
  exact ⟨first, (ends 2 first (by decide)).2.mpr (by decide +kernel), cut, beginning⟩

end Program

end TinyMips
