import TinyMips.Proofs.Machine.Limit

/-!
# Counters of 64 bits

A machine counts its steps, and what they did, without end. A counter of 64 bits cannot: it goes on
at zero after its largest number, or else it must not get there.

* **wrapping** — `Machine.after64` is a run whose counters wrap. What a step does is not decided by
  its counters, so they hold what the counters without end hold, but for the wrapping
  (`Machine.wrapped_after64`), and every step has the same result (`Machine.step_after64`);
* **room** — where no counter can get past its largest number, nothing wraps
  (`Machine.after64_of_room`), as in every run of a program (`Machine.after64_load`).
-/

namespace TinyMips

/-- What a counter of 64 bits holds of a count. -/
def wrap (count : Nat) : Nat := count % 2 ^ 64

@[simp] theorem wrap_wrap (count : Nat) : wrap (wrap count) = wrap count :=
  Nat.mod_mod _ _

theorem wrap_add (count more : Nat) : wrap (wrap count + more) = wrap (count + more) :=
  Nat.mod_add_mod _ _ _

theorem wrap_of_lt {count : Nat} (lt : count < 2 ^ 64) : wrap count = count :=
  Nat.mod_eq_of_lt lt

/-- The statistics in counters of 64 bits. -/
def Statistics.wrapped (stats : Statistics) : Statistics where
  retired := wrap stats.retired
  alu := wrap stats.alu
  loads := wrap stats.loads
  stores := wrap stats.stores
  taken := wrap stats.taken
  notTaken := wrap stats.notTaken
  jumps := wrap stats.jumps
  other := wrap stats.other
  discarded := wrap stats.discarded

namespace Statistics

theorem wrapped_wrapped (stats : Statistics) : stats.wrapped.wrapped = stats.wrapped := by
  ext <;> exact wrap_wrap _

theorem wrapped_add (stats counts : Statistics) :
    (stats.wrapped + counts).wrapped = (stats + counts).wrapped := by
  ext <;> exact wrap_add _ _

theorem wrapped_of_lt {stats : Statistics} (lt : ∀ counter ∈ stats.counters, counter < 2 ^ 64) :
    stats.wrapped = stats := by
  ext <;> exact wrap_of_lt (lt _ (by simp [counters]))

/-- Every counter of a sum is one of the first and one of the second summand. -/
theorem exists_of_mem_counters_add {stats counts : Statistics} {sum : Nat}
    (mem : sum ∈ (stats + counts).counters) :
    ∃ counter ∈ stats.counters, ∃ count ∈ counts.counters, counter + count = sum := by
  have sums : (stats + counts).counters =
      (stats.counters.zip counts.counters).map (Function.uncurry (· + ·)) := rfl
  rw [sums] at mem
  obtain ⟨⟨counter, count⟩, both, added⟩ := List.mem_map.mp mem
  obtain ⟨first, second⟩ := List.of_mem_zip both
  exact ⟨counter, first, count, second, added⟩

end Statistics

/-- The block with the number of its instruction in 64 bits. -/
def TraceBlock.wrapped (block : TraceBlock) : TraceBlock :=
  { block with step := wrap block.step }

namespace Machine

/-- The machine with counters of 64 bits, and so with such numbers in its trace. -/
def wrapped (machine : Machine) : Machine :=
  { machine with
    trace := machine.trace.map TraceBlock.wrapped
    statistics := machine.statistics.wrapped
    steps := wrap machine.steps }

/-- The machine after a number of steps, with counters of 64 bits that wrap. -/
def after64 (machine : Machine) : Nat → Machine
  | 0 => machine
  | count + 1 => (machine.after64 count).step.2.wrapped

/-! ## Wrapping -/

variable {machine other : Machine}

theorem wrapped_wrapped (machine : Machine) : machine.wrapped.wrapped = machine.wrapped := by
  have blocks : TraceBlock.wrapped ∘ TraceBlock.wrapped = TraceBlock.wrapped := by
    funext block
    simp [TraceBlock.wrapped]
  unfold wrapped
  simp [Statistics.wrapped_wrapped, blocks]

theorem wrapped_block (machine : Machine) (pc : Address) :
    TraceBlock.wrapped ∘ machine.wrapped.block pc = TraceBlock.wrapped ∘ machine.block pc := by
  funext report
  simp [TraceBlock.wrapped, block, wrapped, wrap_add]

theorem wrapped_trace_adopt (machine : Machine) (pc : Address) (ending : Ending) :
    (machine.wrapped.adopt pc ending).trace.map TraceBlock.wrapped =
      (machine.adopt pc ending).trace.map TraceBlock.wrapped := by
  have before : machine.wrapped.trace.map TraceBlock.wrapped =
      machine.trace.map TraceBlock.wrapped := congrArg Machine.trace machine.wrapped_wrapped
  cases tracing : machine.tracing with
  | false =>
    have silent : machine.wrapped.tracing = false := tracing
    rw [trace_adopt_of_silent tracing, trace_adopt_of_silent silent, before]
  | true =>
    have traced : machine.wrapped.tracing = true := tracing
    rw [trace_adopt tracing, trace_adopt traced]
    rw [← Array.toList_inj] at before ⊢
    simpa [wrapped_block] using before

/-- What is added to counters that wrapped before can be wrapped once. -/
theorem wrapped_adopt (machine : Machine) (pc : Address) (ending : Ending) :
    (machine.wrapped.adopt pc ending).wrapped = (machine.adopt pc ending).wrapped := by
  have trace := machine.wrapped_trace_adopt pc ending
  have statistics := Statistics.wrapped_add machine.statistics ending.counts
  have steps : wrap (wrap machine.steps + 1) = wrap (machine.steps + 1) := wrap_add _ _
  show { machine.adopt pc ending with
      trace := (machine.wrapped.adopt pc ending).trace.map TraceBlock.wrapped
      statistics := (machine.statistics.wrapped + ending.counts).wrapped
      steps := wrap (wrap machine.steps + 1) } = _
  rw [trace, statistics, steps]
  rfl

/-- The counters of a machine neither decide its next step nor what it adds to them. -/
theorem step_wrapped (machine : Machine) :
    machine.wrapped.step.1 = machine.step.1 ∧
      machine.wrapped.step.2.wrapped = machine.step.2.wrapped := by
  cases here : machine.pc with
  | none =>
    have halted : machine.wrapped.pc = none := here
    rw [step_of_halted here, step_of_halted halted]
    exact ⟨rfl, machine.wrapped_wrapped⟩
  | some pc =>
    have stands : machine.wrapped.pc = some pc := here
    rw [step_eq_adopt here, step_eq_adopt stands]
    exact ⟨rfl, machine.wrapped_adopt pc _⟩

theorem step_congr (same : machine.wrapped = other.wrapped) :
    machine.step.1 = other.step.1 ∧ machine.step.2.wrapped = other.step.2.wrapped := by
  obtain ⟨result, reached⟩ := machine.step_wrapped
  obtain ⟨result', reached'⟩ := other.step_wrapped
  rw [← result, ← reached, ← result', ← reached', same]
  exact ⟨rfl, rfl⟩

/-- Wrapping in each step comes to the same as wrapping once. -/
theorem wrapped_after64 (machine : Machine) (count : Nat) :
    (machine.after64 count).wrapped = (machine.after count).wrapped := by
  induction count with
  | zero => rfl
  | succ count ih =>
    show (machine.after64 count).step.2.wrapped.wrapped = (machine.after count).step.2.wrapped
    rw [wrapped_wrapped, (step_congr ih).2]

theorem step_after64 (machine : Machine) (count : Nat) :
    (machine.after64 count).step.1 = (machine.after count).step.1 :=
  (step_congr (machine.wrapped_after64 count)).1

/-! ## Room -/

/-- Whether the counters of a machine hold so many more steps, and its trace was numbered by such
counters. -/
structure Room (machine : Machine) (count : Nat) : Prop where
  steps : machine.steps + count < 2 ^ 64
  statistics : ∀ counter ∈ machine.statistics.counters, counter + count < 2 ^ 64
  trace : ∀ block ∈ machine.trace, block.step < 2 ^ 64

theorem Room.shorter {count less : Nat} (room : machine.Room count) (le : less ≤ count) :
    machine.Room less where
  steps := Nat.lt_of_le_of_lt (Nat.add_le_add_left le _) room.steps
  statistics counter mem :=
    Nat.lt_of_le_of_lt (Nat.add_le_add_left le _) (room.statistics counter mem)
  trace := room.trace

theorem Room.wrapped_eq (room : machine.Room 0) : machine.wrapped = machine := by
  have steps : wrap machine.steps = machine.steps := wrap_of_lt room.steps
  have statistics : machine.statistics.wrapped = machine.statistics :=
    Statistics.wrapped_of_lt room.statistics
  have trace : machine.trace.map TraceBlock.wrapped = machine.trace := by
    refine (Array.map_congr_left fun block mem => ?_).trans (Array.map_id _)
    unfold TraceBlock.wrapped
    rw [wrap_of_lt (room.trace block mem)]
    rfl
  unfold wrapped
  rw [trace, statistics, steps]

/-- A step takes one off the room. -/
theorem Room.step {count : Nat} (room : machine.Room (count + 1)) :
    machine.step.2.Room count := by
  cases here : machine.pc with
  | none =>
    rw [step_of_halted here]
    exact room.shorter (Nat.le_succ count)
  | some pc =>
    rw [step_eq_adopt here]
    obtain ⟨one, balanced⟩ := (machine.architecture.ends_execute machine.text pc).balanced
    generalize machine.architecture.execute machine.text pc = ending at one balanced
    constructor
    · have room := room.steps
      show machine.steps + 1 + count < 2 ^ 64
      omega
    · intro sum mem
      obtain ⟨counter, before, count', added, rfl⟩ := Statistics.exists_of_mem_counters_add mem
      have room := room.statistics counter before
      have few : count' ≤ 1 := (balanced.le_retired count' added).trans one
      omega
    · intro block mem
      have room' := room.steps
      cases tracing : machine.tracing with
      | false =>
        rw [trace_adopt_of_silent tracing] at mem
        exact room.trace block mem
      | true =>
        rcases (mem_trace_adopt tracing).mp mem with before | ⟨report, -, rfl⟩
        · exact room.trace block before
        · show machine.steps + 1 < 2 ^ 64
          omega

theorem Room.after (count : Nat) {more : Nat} (room : machine.Room (count + more)) :
    (machine.after count).Room more := by
  induction count generalizing more with
  | zero => rwa [Nat.zero_add] at room
  | succ count ih =>
    refine (ih ?_).step
    rwa [Nat.add_right_comm, Nat.add_assoc] at room

/-- Where there is room for a run, nothing wraps. -/
theorem after64_of_room {count : Nat} (room : machine.Room count) :
    machine.after64 count = machine.after count := by
  induction count with
  | zero => rfl
  | succ count ih =>
    have left : (machine.after (count + 1)).Room 0 := Room.after (count + 1) room
    show (machine.after64 count).step.2.wrapped = machine.after (count + 1)
    rw [ih (room.shorter (Nat.le_succ count))]
    exact left.wrapped_eq

/-- A loaded machine has room for all the steps that a limit of 64 bits allows. -/
theorem after64_load (program : Program) (tracing : Bool) {count : Nat} (lt : count < 2 ^ 64) :
    (load program tracing).after64 count = (load program tracing).after count := by
  have zero (counter : Nat) (mem : counter ∈ ({} : Statistics).counters) : counter = 0 :=
    Nat.le_zero.mp (Statistics.balanced_empty.le_retired counter mem)
  refine after64_of_room ⟨?_, fun counter mem => ?_, fun block none => ?_⟩
  · show 0 + count < 2 ^ 64
    omega
  · rw [zero counter mem]
    omega
  · exact absurd none (Array.not_mem_empty block)

end Machine

end TinyMips
