import TinyMips.Architecture.Replay
import TinyMips.Proofs.Machine.Limit

/-!
# The trace as a log

A trace that was kept from the start repeats its run.

* **nothing is missing** — the reports of one step lead to the architecture that the step leaves
  (`Architecture.replay_execute`);
* **nothing is wrong** — each of them shows what the architecture held before the step
  (`Architecture.tells_execute`);
* **over a run** — both are carried through any number of steps by `Machine.Logged`, which
  `Program.trace_replays` reads off where a simulation ends.
-/

namespace TinyMips

namespace Fetched

variable {fetched : Fetched} {registers : RegisterFile} {data next : DataStore}
  {accessed : Accessed}

theorem accessed_ok (h : fetched.accessed registers data = .ok (accessed, next)) :
    match accessed.access with
    | none => next = data
    | some (.load address value) => data.load address = .ok value ∧ next = data
    | some (.store address value) => data.store address value = .ok next := by
  unfold Fetched.accessed Stage.accessMemory at h
  dsimp only at h
  split at h
  · obtain ⟨rfl, rfl⟩ := Prod.mk.inj (Except.ok.inj h)
    rfl
  · split at h
    · contradiction
    · next loaded =>
      obtain ⟨rfl, rfl⟩ := Prod.mk.inj (Except.ok.inj h)
      exact ⟨loaded, rfl⟩
  · split at h
    · contradiction
    · next stored =>
      obtain ⟨rfl, rfl⟩ := Prod.mk.inj (Except.ok.inj h)
      exact stored

end Fetched

namespace Architecture

/-! ## Replaying one step -/

section Step

variable (state : Architecture) {fetched : Fetched} {accessed : Accessed} {data : DataStore}

theorem apply_memoryAccess
    (h : fetched.accessed state.registers state.data = .ok (accessed, data)) :
    state.apply (.memoryAccess accessed) = { state with data }.goTo accessed.nextPc := by
  have did := Fetched.accessed_ok h
  obtain ⟨taken, nextPc, access⟩ := accessed
  match access with
  | none =>
    obtain rfl : data = state.data := did
    rfl
  | some (.load address value) =>
    obtain rfl : data = state.data := did.2
    rfl
  | some (.store address value) =>
    have stored : state.data.store address value = .ok data := did
    unfold apply
    dsimp only [goTo]
    rw [stored]
    rfl

theorem apply_writeBack (fetched : Fetched) (result : Word) (accessed : Accessed) :
    (state.goTo accessed.nextPc).apply (.writeBack (fetched.written result accessed.access)) =
      state.retire fetched result accessed := by
  unfold Fetched.written retire
  split
  · rfl
  · cases Stage.destination? fetched.signals.dest fetched.instruction.operands with
    | none => rfl
    | some r =>
      show (state.goTo accessed.nextPc).apply (.writeBack (.write r _ (r ≠ .zero))) = _
      by_cases zero : r = .zero
      · subst zero
        rfl
      · have committed : decide (r ≠ .zero) = true := decide_eq_true zero
        rw [committed]
        rfl

/-- The reports of a step lead to the architecture after it. -/
theorem replay_execute (text : TextStore) (pc : Address) :
    (state.execute text pc).reports.foldl apply state = (state.execute text pc).state := by
  have ends := state.ends_execute text pc
  generalize state.execute text pc = ending at ends
  cases ends with
  | refused => rfl
  | faulted => rfl
  | finished fetched accessed data _ access =>
    show (state.apply (.memoryAccess accessed)).apply (.writeBack _) = _
    rw [apply_memoryAccess state access]
    exact apply_writeBack { state with data } fetched _ accessed

end Step

/-! ## What a report tells -/

/-- Whether a report tells the truth about a step from a state: the text of the instruction that is
placed there, or an implicit `exit` if there is none, the values of its source registers, the value
that it loads, and that it can store. A write is committed unless it is offered to `r0`. -/
def Tells (state : Architecture) (placed : Option Instruction) : StageReport → Prop
  | .fetch fetched =>
    fetched.instruction.disassemble = (placed.map Instruction.disassemble).getD "exit" ∧
      fetched.implicit = placed.isNone
  | .readOperands read =>
    let sources := ((placed.map Instruction.operands).getD .none).sources
    (read.rs.reg = sources.1 ∧ read.rs.value = state.read read.rs.reg) ∧
      ∀ rt, read.rt = some rt → rt.reg = sources.2 ∧ rt.value = state.read rt.reg
  | .memoryAccess accessed =>
    match accessed.access with
    | none => True
    | some (.load address value) => state.data.load address = .ok value
    | some (.store address value) => ∃ data, state.data.store address value = .ok data
  | .writeBack (.write r _ committed) => committed = true ↔ r ≠ .zero
  | .decode _ | .execute _ | .writeBack _ => True

section Tells

variable {state : Architecture} {text : TextStore} {pc : Address} {fetched : Fetched}

/-- A fetched instruction is the placed one, or the exit that runs where none was placed. -/
theorem exists_placed (fetch : Stage.fetchAt text pc = .ok fetched) :
    ∃ placed, text.fetch pc = .ok placed ∧
      fetched.instruction = placed.getD (.implicitExit pc) ∧ fetched.implicit = placed.isNone := by
  rcases Stage.fetch_of_fetchAt fetch with ⟨empty, rfl⟩ | ⟨inst, placed, -, rfl⟩
  · exact ⟨none, empty, rfl, rfl⟩
  · exact ⟨some inst, placed, rfl, rfl⟩

section Issued

variable {placed : Option Instruction}
  (shown : fetched.instruction = placed.getD (.implicitExit pc))
include shown

theorem tells_fetch (mark : fetched.implicit = placed.isNone) :
    state.Tells placed (.fetch fetched) := by
  refine ⟨?_, mark⟩
  rw [shown]
  cases placed <;> rfl

theorem tells_readOperands :
    state.Tells placed (.readOperands (fetched.operandsRead state.registers)) := by
  have named : (placed.map Instruction.operands).getD .none = fetched.instruction.operands := by
    rw [shown]
    cases placed <;> rfl
  unfold Tells
  rw [named]
  refine ⟨⟨rfl, rfl⟩, ?_⟩
  intro rt given
  unfold Fetched.operandsRead Stage.readOperandsOf at given
  dsimp only at given
  split at given
  · contradiction
  · obtain rfl := Option.some.inj given
    exact ⟨rfl, rfl⟩

theorem tells_issued (mark : fetched.implicit = placed.isNone) :
    ∀ report ∈ fetched.issued state.registers, state.Tells placed report := by
  intro report mem
  simp only [Fetched.issued, List.mem_cons, List.not_mem_nil, or_false] at mem
  rcases mem with rfl | rfl | rfl | rfl
  · exact tells_fetch shown mark
  · trivial
  · exact tells_readOperands shown
  · trivial

end Issued

theorem tells_memoryAccess {placed : Option Instruction} {accessed : Accessed} {data : DataStore}
    (access : fetched.accessed state.registers state.data = .ok (accessed, data)) :
    state.Tells placed (.memoryAccess accessed) := by
  have did := Fetched.accessed_ok access
  obtain ⟨taken, nextPc, made⟩ := accessed
  match made with
  | none => trivial
  | some (.load address value) => exact did.1
  | some (.store address value) => exact ⟨data, did⟩

theorem tells_written {placed : Option Instruction} (result : Word)
    (access : Option MemoryAccess) :
    state.Tells placed (.writeBack (fetched.written result access)) := by
  unfold Fetched.written
  split
  · trivial
  · split
    · trivial
    · exact decide_eq_true_iff

/-- The reports of a step tell the truth about it. -/
theorem tells_execute (state : Architecture) (text : TextStore) (pc : Address) :
    ∀ report ∈ (state.execute text pc).reports,
      ∃ placed, text.fetch pc = .ok placed ∧ state.Tells placed report := by
  have ends := state.ends_execute text pc
  generalize state.execute text pc = ending at ends
  intro report mem
  cases ends with
  | refused => cases mem
  | faulted fetched error fetch =>
    obtain ⟨placed, there, shown, mark⟩ := exists_placed fetch
    exact ⟨placed, there, tells_issued shown mark report mem⟩
  | finished fetched accessed data fetch access =>
    obtain ⟨placed, there, shown, mark⟩ := exists_placed fetch
    refine ⟨placed, there, ?_⟩
    rcases List.mem_append.mp mem with early | late
    · exact tells_issued shown mark report early
    · simp only [List.mem_cons, List.not_mem_nil, or_false] at late
      rcases late with rfl | rfl
      · exact tells_memoryAccess access
      · exact tells_written _ _

end Tells

/-! ## Replaying up to a step -/

theorem replay_append (state : Architecture) (trace : Array TraceBlock) (blocks : List TraceBlock) :
    state.replay (trace ++ blocks) =
      blocks.foldl (fun state block => state.apply block.report) (state.replay trace) := by
  unfold replay
  simp only [← Array.foldl_toList, Array.toList_appendList, List.foldl_append]

/-- The replay of what a trace tells about the steps before one. -/
def replayBefore (state : Architecture) (trace : Array TraceBlock) (step : Nat) : Architecture :=
  state.replay (trace.filter (·.step < step))

theorem replayBefore_append (state : Architecture) {trace : Array TraceBlock}
    {blocks : List TraceBlock} {step : Nat} (later : ∀ block ∈ blocks, step ≤ block.step) :
    state.replayBefore (trace ++ blocks) step = state.replayBefore trace step := by
  unfold replayBefore
  congr 1
  have none : blocks.filter (·.step < step) = [] := by
    rw [List.filter_eq_nil_iff]
    intro block mem
    simpa using later block mem
  rw [← Array.toList_inj, Array.toList_filter, Array.toList_filter, Array.toList_appendList,
    List.filter_append, none, List.append_nil]

theorem replayBefore_of_forall_lt (state : Architecture) {trace : Array TraceBlock} {step : Nat}
    (earlier : ∀ block ∈ trace, block.step < step) :
    state.replayBefore trace step = state.replay trace := by
  unfold replayBefore
  rw [Array.filter_eq_self.mpr]
  intro block mem
  exact decide_eq_true (earlier block mem)

end Architecture

/-! ## Over a run -/

namespace Machine

/-- Whether the trace of a machine is a log of what it did since it stood in a state: replayed, it
leads to where the machine is now, and each block tells the truth about the state to which the
steps before it lead. -/
structure Logged (start : Architecture) (text : TextStore) (machine : Machine) : Prop where
  tracing : machine.tracing = true
  text_eq : machine.text = text
  replayed : start.replay machine.trace = machine.architecture
  ordered : machine.trace.toList.Pairwise fun earlier later => earlier.step ≤ later.step
  step_le : ∀ block ∈ machine.trace, block.step ≤ machine.steps
  told : ∀ block ∈ machine.trace,
    (start.replayBefore machine.trace block.step).pc = some block.pc ∧
      ∃ placed, text.fetch block.pc = .ok placed ∧
        (start.replayBefore machine.trace block.step).Tells placed block.report

theorem logged_load (program : Program) :
    (load program true).Logged (load program true).architecture program.text where
  tracing := rfl
  text_eq := rfl
  replayed := rfl
  ordered := List.Pairwise.nil
  step_le block mem := absurd mem (Array.not_mem_empty block)
  told block mem := absurd mem (Array.not_mem_empty block)

variable {start : Architecture} {text : TextStore} {machine : Machine} {pc : Address}
  {ending : Ending}

theorem Logged.replayBefore_adopt (h : machine.Logged start text) {step : Nat}
    (le : step ≤ machine.steps + 1) :
    start.replayBefore (machine.adopt pc ending).trace step =
      start.replayBefore machine.trace step := by
  rw [trace_adopt h.tracing]
  apply Architecture.replayBefore_append
  intro block mem
  obtain ⟨report, -, rfl⟩ := List.mem_map.mp mem
  exact le

theorem Logged.replayBefore_next (h : machine.Logged start text) :
    start.replayBefore machine.trace (machine.steps + 1) = machine.architecture := by
  rw [← h.replayed]
  apply Architecture.replayBefore_of_forall_lt
  intro block mem
  exact Nat.lt_succ_of_le (h.step_le block mem)

/-- A log is carried on by reports that lead to where a step ends and tell the truth about it. -/
theorem Logged.adopt (h : machine.Logged start text) (here : machine.pc = some pc)
    (replays : ending.reports.foldl Architecture.apply machine.architecture = ending.state)
    (tells : ∀ report ∈ ending.reports,
      ∃ placed, text.fetch pc = .ok placed ∧ machine.architecture.Tells placed report) :
    (machine.adopt pc ending).Logged start text where
  tracing := h.tracing
  text_eq := h.text_eq
  replayed := by
    rw [trace_adopt h.tracing, Architecture.replay_append, h.replayed, List.foldl_map]
    exact replays
  ordered := by
    rw [trace_adopt h.tracing, Array.toList_appendList, List.pairwise_append, List.pairwise_map]
    refine ⟨h.ordered, List.pairwise_of_forall fun _ _ => Nat.le_refl _, ?_⟩
    intro earlier old later new
    obtain ⟨report, -, rfl⟩ := List.mem_map.mp new
    exact Nat.le_succ_of_le (h.step_le earlier (Array.mem_toList_iff.mp old))
  step_le := by
    intro block mem
    rcases (mem_trace_adopt h.tracing).mp mem with old | ⟨report, -, rfl⟩
    · exact Nat.le_succ_of_le (h.step_le block old)
    · exact Nat.le_refl _
  told := by
    intro block mem
    rcases (mem_trace_adopt h.tracing).mp mem with old | ⟨report, told, rfl⟩
    · rw [h.replayBefore_adopt (Nat.le_succ_of_le (h.step_le block old))]
      exact h.told block old
    · have before : start.replayBefore (machine.adopt pc ending).trace (machine.steps + 1) =
          machine.architecture := (h.replayBefore_adopt (Nat.le_refl _)).trans h.replayBefore_next
      rw [show (machine.block pc report).step = machine.steps + 1 from rfl, before]
      exact ⟨here, tells report told⟩

/-- A step tells all of what it does, and the truth about it. -/
theorem Logged.step (h : machine.Logged start text) : machine.step.2.Logged start text := by
  cases here : machine.pc with
  | none =>
    rw [step_of_halted here]
    exact h
  | some pc =>
    rw [step_eq_adopt here, h.text_eq]
    exact h.adopt here (machine.architecture.replay_execute text pc)
      (machine.architecture.tells_execute text pc)

end Machine

/-- The trace of a run is a log of it, under any limit and whatever ends the run. Replaying it from
the first instruction, zeroed registers and the data of the program leads to where the run ended.
On the way every block stands at the program counter of its step and tells the truth about it. -/
theorem Program.trace_replays (program : Program) (limit : Nat) :
    let start : Architecture :=
      { pc := some 0x00400000, registers := {}, data := program.data }
    let final := (Simulation.load program true limit).run.2.machine
    start.replay final.trace = final.architecture ∧
      final.trace.toList.Pairwise (fun earlier later => earlier.step ≤ later.step) ∧
      ∀ block ∈ final.trace,
        let before := start.replay (final.trace.filter (·.step < block.step))
        before.pc = some block.pc ∧
          ∃ placed, program.text.fetch block.pc = .ok placed ∧
            before.Tells placed block.report := by
  intro start final
  obtain ⟨count, -, stands, -⟩ :=
    (Simulation.load program true limit).exists_advance rfl rfl
  have logged : ((Machine.load program true).after count).Logged start program.text :=
    Machine.after_induction (Machine.logged_load program) (fun _ logged => logged.step) count
  have reached : final = (Machine.load program true).after count :=
    congrArg Simulation.machine stands
  rw [reached]
  exact ⟨logged.replayed, logged.ordered, logged.told⟩

end TinyMips
