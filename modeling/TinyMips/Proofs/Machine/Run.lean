import TinyMips.Machine.Simulation
import TinyMips.Proofs.Machine.Step

/-!
# Runs

The states of a run are `Machine.after` a number of steps. Whatever a step preserves holds of all
of them (`Machine.after_induction`), and a simulation that ends in a fault, other than its limit,
ends in the fault of one of their steps (`Simulation.runFor_error`).
-/

namespace TinyMips

namespace Machine

/-- The machine after a number of steps, whether or not they fail. -/
def after (machine : Machine) : Nat → Machine
  | 0 => machine
  | count + 1 => (machine.after count).step.2

/-- The first step can be taken off a run. -/
theorem after_step (machine : Machine) (count : Nat) :
    machine.step.2.after count = machine.after (count + 1) := by
  induction count with
  | zero => rfl
  | succ count ih =>
    show (machine.step.2.after count).step.2 = (machine.after (count + 1)).step.2
    rw [ih]

/-- What holds of a machine and is preserved by steps holds after any number of them. -/
theorem after_induction {motive : Machine → Prop} {machine : Machine} (start : motive machine)
    (step : ∀ state, motive state → motive state.step.2) (count : Nat) :
    motive (machine.after count) := by
  induction count with
  | zero => exact start
  | succ count ih => exact step _ ih

end Machine

namespace Simulation

/-- A step of a simulation fails at the limit or as the step of its machine does. -/
theorem step_error {simulation : Simulation} {fault : Fault} {next : Simulation}
    (h : simulation.step = (.error fault, next)) :
    fault = .stepLimit simulation.limit ∨ simulation.machine.step.1 = .error fault := by
  unfold step at h
  split at h
  · exact .inl (Except.error.inj (congrArg Prod.fst h)).symm
  · exact .inr (congrArg Prod.fst h)

theorem step_ok {simulation next : Simulation} (h : simulation.step = (.ok (), next)) :
    next.limit = simulation.limit ∧ next.machine = simulation.machine.step.2 := by
  unfold step at h
  split at h
  · exact absurd (congrArg Prod.fst h) nofun
  · obtain rfl := congrArg Prod.snd h
    exact ⟨rfl, rfl⟩

/-- A simulation fails at its limit or as one of the steps of its machine does. -/
theorem runFor_error {simulation : Simulation} {budget : Nat} {fault : Fault}
    (h : (simulation.runFor budget).1 = .error fault) :
    fault = .stepLimit simulation.limit ∨
      ∃ count, (simulation.machine.after count).step.1 = .error fault := by
  induction budget generalizing simulation with
  | zero =>
    unfold runFor at h
    split at h
    · contradiction
    · exact .inl (Except.error.inj h).symm
  | succ budget ih =>
    unfold runFor at h
    split at h
    · contradiction
    · split at h
      · next next stepped =>
        obtain ⟨limit, machine⟩ := step_ok stepped
        rcases ih h with reached | ⟨count, fails⟩
        · exact .inl (limit ▸ reached)
        · refine .inr ⟨count + 1, ?_⟩
          rw [machine, Machine.after_step] at fails
          exact fails
      · next other next stepped =>
        obtain rfl := Except.error.inj h
        rcases step_error stepped with reached | fails
        · exact .inl reached
        · exact .inr ⟨0, fails⟩

end Simulation

end TinyMips
