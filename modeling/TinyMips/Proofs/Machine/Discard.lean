import TinyMips.Proofs.Assembly.Hardwired
import TinyMips.Proofs.Machine.ControlFlow
import TinyMips.Proofs.Machine.Limit

/-!
# Discarded writes

A run warns of each write that `r0` discards. The assembly has warned of them all before:

* **one step** — a completed instruction warns of its write if its destination is `r0`, and then no
  register changes (`Architecture.discards_execute`); nothing else warns of a write
  (`Architecture.discards_execute_of_ne`);
* **runs** — a step of a program warns of a write exactly if it completes the instruction of a line
  that the assembly warned of, so every such warning of a run names a line of an earlier warning
  (`Program.discarded_writes_are_predicted`).
-/

namespace TinyMips

/-- Whether a message is about a write that `r0` discarded. -/
def Message.isDiscard : Message → Bool
  | .writeDiscarded _ => true
  | _ => false

/-- The warnings of a log about discarded writes. -/
def Log.discards (log : Log) : List LogEntry :=
  log.warnings.toList.filter fun entry => entry.message.isDiscard

theorem Log.discards_warnAll (log : Log) (warnings : List LogEntry) :
    (log.warnAll warnings).discards =
      log.discards ++ warnings.filter fun entry => entry.message.isDiscard := by
  unfold discards warnAll
  rw [Array.toList_appendList, List.filter_append]

/-! ## One step -/

/-- A completed instruction warns of its write if its destination is `r0`. -/
theorem Fetched.warnings_written (fetched : Fetched) (result : Word)
    (access : Option MemoryAccess) (line : Option Nat) :
    (fetched.written result access).warnings line =
      if fetched.instruction.destination? = some .zero then
        [{ line, message := .writeDiscarded
            (Stage.writeBackValue fetched.signals.wb result access) }]
      else [] := by
  unfold written
  split
  · next terminal =>
    rw [fetched.instruction.destination?_of_isTerminal terminal]
    rfl
  · have same : Stage.destination? fetched.signals.dest fetched.instruction.operands =
        fetched.instruction.destination? := rfl
    rw [same]
    cases fetched.instruction.destination? with
    | none => rfl
    | some r =>
      by_cases zero : r = .zero
      · subst zero
        rfl
      · have other : some r ≠ some Reg.zero := fun same => zero (Option.some.inj same)
        simp [zero, WrittenBack.warnings]

namespace Architecture

variable {state : Architecture} {text : TextStore} {pc : Address}

/-- An instruction with the destination `r0` changes no register. -/
theorem registers_retire {fetched : Fetched}
    (zero : fetched.instruction.destination? = some .zero) (result : Word) (accessed : Accessed) :
    (state.retire fetched result accessed).registers = state.registers := by
  have select : Stage.destination? fetched.signals.dest fetched.instruction.operands =
      some .zero := zero
  unfold retire
  split
  · rfl
  · rw [select]
    rfl

/-- A completed instruction with the destination `r0` warns once and changes no register. -/
theorem discards_execute {inst : Instruction} (placed : text.fetch pc = .ok (some inst))
    (zero : inst.destination? = some .zero) (ok : (state.execute text pc).result = .ok ()) :
    ∃ value,
      (state.execute text pc).warnings =
        [{ line := inst.line, message := .writeDiscarded value }] ∧
      (state.execute text pc).state.registers = state.registers := by
  have ends := state.ends_execute text pc
  generalize state.execute text pc = ending at ends ok
  cases ends with
  | refused => cases ok
  | faulted => cases ok
  | finished fetched accessed data fetch access =>
    rcases Stage.fetch_of_fetchAt fetch with ⟨empty, -⟩ | ⟨other, found, -, rfl⟩
    · rw [placed] at empty
      cases empty
    · obtain rfl : inst = other := by
        rw [placed] at found
        exact Option.some.inj (Except.ok.inj found)
      let fetched : Fetched := { npc := pc + 4, instruction := inst, implicit := false }
      let result := (fetched.executed state.registers).result
      have warned := fetched.warnings_written result accessed.access inst.line
      rw [if_pos zero] at warned
      exact ⟨_, warned, registers_retire zero result accessed⟩

/-- A step that completes no instruction with the destination `r0` warns of no write. -/
theorem discards_execute_of_ne
    (other : ∀ inst, text.fetch pc = .ok (some inst) → inst.destination? = some .zero →
      (state.execute text pc).result ≠ .ok ()) :
    ((state.execute text pc).warnings.filter fun entry => entry.message.isDiscard) = [] := by
  have ends := state.ends_execute text pc
  generalize state.execute text pc = ending at ends other
  cases ends with
  | refused => rfl
  | faulted => rfl
  | finished fetched accessed data fetch access =>
    unfold finish
    dsimp only
    rw [Fetched.warnings_written]
    rcases Stage.fetch_of_fetchAt fetch with ⟨-, rfl⟩ | ⟨inst, found, -, rfl⟩
    · rfl
    · rw [if_neg fun zero => other inst found zero rfl]
      rfl

end Architecture

/-! ## Runs -/

/-- Whether a machine stands at an instruction of a line that the assembly of its program warned
of for writing `r0`. -/
structure Machine.AtHardwired (machine : Machine) (program : Program) (inst : Instruction)
    (number : Nat) : Prop where
  here : machine.pc = some inst.address
  placed : ∃ index, machine.text.get? index = some inst
  origin : inst.line = some number
  warned : program.WarnsOf number

namespace Program

variable {source : String} {program : Program} {machine : Machine} {inst : Instruction}

/-- What is fetched was placed at its own address. -/
theorem placed_of_fetch (h : ofSource source = .ok program) {pc : Address}
    (fetch : program.text.fetch pc = .ok (some inst)) :
    ∃ index, program.text.get? index = some inst ∧ pc = inst.address := by
  unfold TextStore.fetch at fetch
  cases supported : Region.text.check pc with
  | error error =>
    rw [supported] at fetch
    cases fetch
  | ok index =>
    rw [supported] at fetch
    have found : program.text.get? index = some inst := Except.ok.inj fetch
    obtain ⟨supports, rfl⟩ := (Region.check_eq_ok_iff _ _ _).mp supported
    refine ⟨_, found, ?_⟩
    rw [address_of_get? h found, Region.addressOf_indexOf supports]

theorem fetch_of_get? (h : ofSource source = .ok program) {index : Nat}
    (found : program.text.get? index = some inst) :
    program.text.fetch inst.address = .ok (some inst) := by
  unfold TextStore.fetch
  rw [check_of_get? h found, ← found]
  rfl

/-- An instruction of a line that was warned about warns of its write when it completes. -/
theorem step_of_atHardwired (h : ofSource source = .ok program)
    (text : machine.text = program.text) {number : Nat}
    (stands : machine.AtHardwired program inst number) (ok : machine.step.1 = .ok ()) :
    ∃ value, machine.step.2.log = machine.log.warn (some number) (.writeDiscarded value) ∧
      machine.step.2.registers = machine.registers := by
  obtain ⟨here, ⟨index, found⟩, origin, warned⟩ := stands
  rw [text] at found
  have zero := (warnsOf_iff (SourceLine.pairwise_ofSource source) h found origin).mp warned
  have stepped := Machine.step_eq_adopt here
  have fetch := fetch_of_get? h found
  rw [← text] at fetch
  rw [stepped] at ok ⊢
  obtain ⟨value, warns, kept⟩ := Architecture.discards_execute fetch zero ok
  refine ⟨value, ?_, kept⟩
  unfold Machine.adopt Log.warn Log.warnAll
  rw [warns, origin]
  rfl

/-- No other step warns of a write. -/
theorem discards_step (h : ofSource source = .ok program) (text : machine.text = program.text)
    (other : machine.step.1 ≠ .ok () ∨ ∀ inst number, ¬machine.AtHardwired program inst number) :
    machine.step.2.log.discards = machine.log.discards := by
  cases here : machine.pc with
  | none => rw [Machine.step_of_halted here]
  | some pc =>
    have stepped := Machine.step_eq_adopt here
    have silent : ((machine.architecture.execute machine.text pc).warnings.filter
        fun entry => entry.message.isDiscard) = [] := by
      apply Architecture.discards_execute_of_ne
      intro inst fetch zero ok
      rcases other with fails | elsewhere
      · rw [stepped] at fails
        exact fails ok
      · rw [text] at fetch
        obtain ⟨index, found, rfl⟩ := placed_of_fetch h fetch
        obtain ⟨line, -, -, -, -, origin, -⟩ := line_of_get? h found
        have warned :=
          (warnsOf_iff (SourceLine.pairwise_ofSource source) h found origin).mpr zero
        rw [← text] at found
        exact elsewhere inst line.number ⟨here, ⟨index, found⟩, origin, warned⟩
    rw [stepped]
    show (machine.log.warnAll _).discards = _
    rw [Log.discards_warnAll, silent, List.append_nil]

/-- Every discarded write of a run is one of a line that was warned about. -/
theorem warned_of_mem_discards (h : ofSource source = .ok program) (tracing : Bool) (count : Nat) :
    ∀ entry ∈ ((Machine.load program tracing).after count).log.discards,
      ∃ number, entry.line = some number ∧ program.WarnsOf number := by
  induction count with
  | zero => nofun
  | succ count ih =>
    intro entry mem
    have text := (inReach_after h tracing count).text
    have mem : entry ∈ ((Machine.load program tracing).after count).step.2.log.discards := mem
    generalize (Machine.load program tracing).after count = machine at *
    by_cases discards : machine.step.1 = .ok () ∧
        ∃ inst number, machine.AtHardwired program inst number
    · obtain ⟨ok, inst, number, stands⟩ := discards
      obtain ⟨value, log, -⟩ := step_of_atHardwired h text stands ok
      rw [log] at mem
      unfold Log.discards Log.warn at mem
      rw [Array.toList_push, List.filter_append, List.mem_append] at mem
      rcases mem with before | new
      · exact ih entry before
      · obtain rfl := List.mem_singleton.mp new
        exact ⟨number, rfl, stands.warned⟩
    · have other : machine.step.1 ≠ .ok () ∨
          ∀ inst number, ¬machine.AtHardwired program inst number := by
        rcases not_and_or.mp discards with fails | elsewhere
        · exact .inl fails
        · exact .inr fun inst number stands => elsewhere ⟨inst, number, stands⟩
      rw [discards_step h text other] at mem
      exact ih entry mem

/-- However far a program runs, the instruction of a line that the assembly warned of for writing
`r0` warns of its write once with the number of that line whenever it completes, and it changes no
register. No other step warns of a write, be it of another line, of a fault or of the implicit
exit, so every such warning of a run names a line that was warned about before. -/
theorem discarded_writes_are_predicted (h : ofSource source = .ok program) (tracing : Bool) :
    let start := Machine.load program tracing
    (∀ count,
      let machine := start.after count
      (∀ inst number, machine.AtHardwired program inst number → machine.step.1 = .ok () →
        ∃ value, machine.step.2.log = machine.log.warn (some number) (.writeDiscarded value) ∧
          machine.step.2.registers = machine.registers) ∧
      ((machine.step.1 ≠ .ok () ∨ ∀ inst number, ¬machine.AtHardwired program inst number) →
        machine.step.2.log.discards = machine.log.discards) ∧
      ∀ entry ∈ machine.log.discards,
        ∃ number, entry.line = some number ∧ program.WarnsOf number) ∧
    ∀ limit, ∀ entry ∈ (Simulation.load program tracing limit).run.2.machine.log.discards,
      ∃ number, entry.line = some number ∧ program.WarnsOf number := by
  intro start
  refine ⟨fun count => ?_, fun limit entry mem => ?_⟩
  · have text := (inReach_after h tracing count).text
    exact ⟨fun inst number stands ok => step_of_atHardwired h text stands ok,
      fun other => discards_step h text other, warned_of_mem_discards h tracing count⟩
  · obtain ⟨count, -, final, -⟩ := (Simulation.load program tracing limit).exists_advance rfl rfl
    rw [final] at mem
    exact warned_of_mem_discards h tracing count entry mem

/-- A sum for `r0` is discarded with a warning; the load after it is warned about as well, but
faults and discards nothing. -/
theorem discarded_writes_are_predicted_of_load :
    let source := "add $ZERO, r1, r1\nlw 0, 8(r1)"
    ∃ program, ofSource source = .ok program ∧ program.WarnsOf 1 ∧ program.WarnsOf 2 ∧
      let start := Machine.load program true
      (∃ value, start.step.2.log = start.log.warn (some 1) (.writeDiscarded value) ∧
        start.step.2.registers = start.registers) ∧
      (start.after 1).step.2.log.discards = (start.after 1).log.discards := by
  intro source
  let sum : Instruction :=
    { opcode := .add, operands := .register 1 1 0, line := some 1, address := 0x00400000
      assembled := true }
  let warnings : Array LogEntry :=
    #[{ line := some 1, message := .registerHardwired "$zero" },
      { line := some 2, message := .registerHardwired "0" }]
  have parts : (ofSource source).toOption.map
      (fun program =>
        (program.text.get? 0, program.log.warnings, (Machine.load program true).step.1.isOk,
          ((Machine.load program true).after 1).step.1.isOk)) =
        some (some sum, warnings, true, false) := by decide +kernel
  cases h : ofSource source with
  | error reasons =>
    rw [h] at parts
    contradiction
  | ok program =>
    rw [h] at parts
    obtain ⟨placed, rest⟩ := Prod.mk.inj (Option.some.inj parts)
    obtain ⟨warned, rest⟩ := Prod.mk.inj rest
    obtain ⟨completes, faults⟩ := Prod.mk.inj rest
    have first : program.WarnsOf 1 := ⟨"$zero", by rw [warned]; simp [warnings]⟩
    have second : program.WarnsOf 2 := ⟨"0", by rw [warned]; simp [warnings]⟩
    have predicted := (discarded_writes_are_predicted h true).1
    have ok : (Machine.load program true).step.1 = .ok () := by
      cases result : (Machine.load program true).step.1 with
      | ok => rfl
      | error fault =>
        rw [result] at completes
        cases completes
    have failed : ((Machine.load program true).after 1).step.1 ≠ .ok () := by
      intro result
      rw [result] at faults
      cases faults
    exact ⟨program, rfl, first, second,
      (predicted 0).1 sum 1 ⟨rfl, ⟨0, placed⟩, rfl, first⟩ ok, (predicted 1).2.1 (.inl failed)⟩

end Program

end TinyMips
