import TinyMips.Proofs.Machine.ControlFlow
import TinyMips.Proofs.Machine.Limit

/-!
# Programs that go forward

Where every branch and every jump of a program is to a higher address, no instruction is executed
twice:

* **one step** — a step that does not end the run is one at an instruction and goes on at a higher
  address (`Program.climbs_of_not_stops`);
* **runs** — after as many steps as do not end it, a run stands at least so many instructions above
  the first one, and below where it stands now at every step before
  (`Program.climbed_after`); so its first stop comes at the latest one step after as many steps as
  there are instructions (`Program.exists_first_stop`).
-/

namespace TinyMips

/-! ## Targets -/

namespace Instruction

/-- The address, as an integer, to which a linked branch or jump is. -/
def target? (inst : Instruction) : Option Int :=
  match inst.opcode.format, inst.operands with
  | .branch, .immediate _ _ (.literal offset) _ => some (inst.address.toNat + 4 + 4 * offset.toInt)
  | .jump, .jump (.literal target) => some (4 * target.toInt)
  | _, _ => none

theorem target?_of_branch {inst : Instruction} {rs rt : Reg} {offset : Word} {mode : ImmediateMode}
    (format : inst.opcode.format = .branch)
    (shape : inst.operands = .immediate rs rt (.literal offset) mode) :
    inst.target? = some (inst.address.toNat + 4 + 4 * offset.toInt) := by
  unfold target?
  rw [format, shape]

theorem target?_of_jump {inst : Instruction} {target : Word} (format : inst.opcode.format = .jump)
    (shape : inst.operands = .jump (.literal target)) :
    inst.target? = some (4 * target.toInt) := by
  unfold target?
  rw [format, shape]

/-- Whether an instruction is no branch and no jump to its own address or a lower one. -/
def IsForward (inst : Instruction) : Prop :=
  ∀ target ∈ inst.target?, (inst.address.toNat : Int) < target

instance (inst : Instruction) : Decidable inst.IsForward := by
  unfold IsForward
  infer_instance

section Leads

variable {inst : Instruction} {index : Nat} {state : Architecture} {next : Address}
  (lt : index < 256) (address : inst.address = Region.text.addressOf index)
include lt address

theorem toNat_address : inst.address.toNat = 0x00400000 + 4 * index := by
  rw [address, Region.toNat_addressOf_text (by omega)]

/-- An accepted forward instruction leads to a higher address. -/
theorem lt_of_leads (accepted : inst.operands.Accepted inst.opcode) (forward : inst.IsForward)
    (leads : state.Leads (inst.address + 4) inst.opcode inst.operands next) :
    inst.address.toNat < next.toNat := by
  have own := toNat_address lt address
  have after := toNat_address_add_four lt address
  cases leads with
  | sequential eq =>
    rw [eq]
    omega
  | branch rs rt offset format shape taken eq =>
    have fits : offset.fits16 = true := by
      rw [shape] at accepted
      cases accepted with
      | arithmetic _ _ _ _ fits | offset _ _ _ _ fits | distance _ _ _ _ fits => exact fits
    have reached := toNat_branch_target lt address fits
    have ahead := forward _ (target?_of_branch format shape)
    rw [eq]
    omega
  | jump target format shape eq =>
    have ahead := forward _ (target?_of_jump format shape)
    rw [shape] at accepted
    cases accepted with
    | target _ _ low high supported =>
      have bytes : target.toBytes.toInt = 4 * target.toInt :=
        Word.toInt_toBytes (by omega) (by omega)
      have value : (target.toBytes.toUInt64.toNat : Int) = target.toBytes.toInt :=
        Word.toNat_toUInt64 (by omega)
      rw [eq]
      omega

end Leads

end Instruction

namespace Program

/-- Whether all branches and jumps of a program are to higher addresses. -/
def IsForward (program : Program) : Prop :=
  ∀ inst ∈ program.text.instructions, inst.IsForward

instance (program : Program) : Decidable program.IsForward := by
  unfold IsForward
  infer_instance

variable {source : String} {program : Program} {machine : Machine}

/-! ## One step -/

/-- A step of a forward program that does not end the run is one at an instruction, and it goes on
at a higher address. -/
theorem climbs_of_not_stops (h : ofSource source = .ok program) (forward : program.IsForward)
    (reach : program.InReach machine) {pc : Address} (here : machine.pc = some pc)
    (above : 0x00400000 ≤ pc.toNat) (goes : ¬machine.Stops) :
    pc.toNat < 0x00400000 + 4 * program.text.size ∧
      ∃ next, machine.step.2.pc = some next ∧ pc.toNat + 4 ≤ next.toNat := by
  obtain ⟨succeeds, running⟩ := Machine.not_stops_iff.mp goes
  obtain ⟨next, moved⟩ := (Machine.isHalted_eq_false_iff _).mp running
  cases reach.position h with
  | halted pc =>
    rw [pc] at here
    cases here
  | below other stands low =>
    obtain rfl := Option.some.inj (here.symm.trans stands)
    omega
  | past other index stands supported empty =>
    rw [(step_of_past stands supported empty).2] at moved
    cases moved
  | placed index inst found stands =>
    obtain rfl := Option.some.inj (here.symm.trans stands)
    have address := address_of_get? h found
    have lt := TextStore.lt_of_get? found
    obtain ⟨accepted, unlabelled⟩ := accepted_of_get? h found
    have higher : inst.address.toNat < next.toNat := by
      cases (stepsAt_of_get? h found reach.text here).2 with
      | faults error fails =>
        rw [fails] at succeeds
        cases succeeds
      | completes _ goesOn =>
        rw [moved] at goesOn
        have leads := Architecture.leads_of_successor _ (accepted.fits.linked unlabelled)
          goesOn.symm
        exact Instruction.lt_of_leads lt address accepted
          (forward inst (Array.mem_of_getElem? found)) leads
    -- both addresses are aligned, so that the next instruction is the closest one
    have aligned := (reach.near _ here).1
    have aligned' := ((reach.step h).near _ moved).1
    have within := TextStore.lt_size_of_get? found
    have own := Instruction.toNat_address lt address
    exact ⟨by omega, next, moved, by omega⟩

/-! ## Runs -/

section Runs

variable (h : ofSource source = .ok program) (forward : program.IsForward) (tracing : Bool)
include h forward

/-- After steps that did not end it, a run stands as many instructions further at least, and above
all addresses where it stood before. -/
theorem climbed_after (count : Nat)
    (goes : ∀ last < count, ¬((Machine.load program tracing).after last).Stops) :
    ∃ pc, ((Machine.load program tracing).after count).pc = some pc ∧
      0x00400000 + 4 * count ≤ pc.toNat ∧
      ∀ earlier < count, ∃ before,
        ((Machine.load program tracing).after earlier).pc = some before ∧ before < pc := by
  induction count with
  | zero =>
    refine ⟨_, rfl, ?_, fun earlier lt => absurd lt (Nat.not_lt_zero _)⟩
    rw [Region.toNat_addressOf_text (by omega)]
  | succ count ih =>
    obtain ⟨pc, here, climbed, lower⟩ := ih fun last lt => goes last (by omega)
    obtain ⟨-, next, moved, higher⟩ := climbs_of_not_stops h forward
      (inReach_after h tracing count) here (by omega) (goes count (by omega))
    have lt : pc < next := UInt64.lt_iff_toNat_lt.mpr (by omega)
    refine ⟨next, moved, by omega, fun earlier before => ?_⟩
    rcases Nat.lt_succ_iff_lt_or_eq.mp before with strictly | rfl
    · obtain ⟨first, there, below⟩ := lower earlier strictly
      exact ⟨first, there, UInt64.lt_trans below lt⟩
    · exact ⟨pc, here, lt⟩

/-- A run that made a step at every instruction has none left, so that the next step ends it. -/
theorem exists_first_stop :
    ∃ least ≤ program.text.size + 1, IsLeast (Machine.load program tracing).stops least := by
  by_contra none
  have goes (last : Nat) (lt : last < program.text.size + 1) :
      ¬((Machine.load program tracing).after last).Stops := by
    refine Machine.not_stops_of_limit (fun least first => ?_) lt
    exact Nat.not_le.mp fun le => none ⟨least, le, first⟩
  obtain ⟨pc, here, climbed, -⟩ :=
    climbed_after h forward tracing program.text.size fun last lt => goes last (by omega)
  obtain ⟨inside, -⟩ := climbs_of_not_stops h forward (inReach_after h tracing _) here (by omega)
    (goes program.text.size (by omega))
  omega

/-- Where all branches and jumps of a program are to higher addresses, a run with a limit above the
number of its instructions needs at most one step more than there are instructions. Each step is
at a higher address than those before it, so that no instruction is executed twice, and the run
ends halted or with a fault of an access to data. -/
theorem forward_run_ends {limit : Nat} (enough : program.text.size + 1 ≤ limit) :
    let start := Machine.load program tracing
    let run := (Simulation.load program tracing limit).run
    let final := run.2.machine
    final.steps ≤ program.text.size + 1 ∧
      final = start.after final.steps ∧
      (∀ i j, i < j → j < final.steps →
        ∃ pc pc', (start.after i).pc = some pc ∧ (start.after j).pc = some pc' ∧ pc < pc') ∧
      (run.1 = .ok () ∧ final.isHalted = true ∨
        ∃ error, run.1 = .error (.address .memoryAccess error)) := by
  intro start run final
  obtain ⟨least, le, first⟩ := exists_first_stop h forward tracing
  have running : start.isHalted = false := rfl
  have ran : run =
      ((start.after (least - 1)).step.1, (Simulation.load program tracing limit).advance least) :=
    Simulation.run_of_first_stop running first (by show 0 + least ≤ limit; omega)
  obtain ⟨last, rfl, stops⟩ := first.1
  have goes (other : Nat) (lt : other < last) : ¬(start.after other).Stops :=
    Machine.not_stops_of_lt first (by omega)
  have counted : (start.after (last + 1)).steps = 0 + (last + 1) :=
    Machine.steps_after running fun other lt => goes other (by omega)
  rw [Nat.zero_add] at counted
  have result : run.1 = (start.after last).step.1 := congrArg Prod.fst ran
  have reached : final = start.after (last + 1) :=
    congrArg (fun ended => ended.2.machine) ran
  rw [result, reached, counted]
  refine ⟨le, rfl, ?_, ?_⟩
  · intro i j lt within
    obtain ⟨pc', there, -, lower⟩ :=
      climbed_after h forward tracing j fun other lt => goes other (by omega)
    obtain ⟨pc, here, below⟩ := lower i lt
    exact ⟨pc, pc', here, there, below⟩
  · obtain ⟨pc, here, climbed, -⟩ := climbed_after h forward tracing last goes
    cases outcome : (start.after last).step.1 with
    | ok => exact .inl ⟨rfl, (Machine.ok_iff_halted stops).mp outcome⟩
    | error fault =>
      rcases (inReach_after h tracing last).fault h outcome with
        ⟨error, rfl⟩ | ⟨other, stands, low, -⟩
      · exact .inr ⟨error, rfl⟩
      -- a fetch is refused only below the instructions, and the run is above the first one
      · obtain rfl := Option.some.inj (here.symm.trans stands)
        omega

end Runs

/-- A branch and a call skip instructions, a load reads data, and a jump leads beyond the last
instruction, where an `exit` runs: five steps at six instructions. -/
theorem forward_run_ends_of_jump_past_end :
    let source :=
      "beq r0, r0, skip\nhalt\nskip: jal over\nnop\nover: lw r1, v\nj 1048700\nv: .word 7"
    ∃ program, ofSource source = .ok program ∧ program.IsForward ∧ program.text.size = 6 ∧
      let run := (Simulation.load program true 7).run
      run.2.machine.steps = 5 ∧ run.1 = .ok () ∧ run.2.machine.isHalted = true := by
  intro source
  have parts : (ofSource source).toOption.map
      (fun program => (decide program.IsForward, program.text.size,
        (Simulation.load program true 7).run.2.machine.steps,
        decide ((Simulation.load program true 7).run.1 = .ok ()))) =
        some (true, 6, 5, true) := by decide +kernel
  cases h : ofSource source with
  | error reasons =>
    rw [h] at parts
    cases parts
  | ok program =>
    rw [h] at parts
    simp only [Except.toOption, Option.map_some, Option.some.injEq, Prod.mk.injEq,
      decide_eq_true_eq] at parts
    obtain ⟨forward, size, steps, ok⟩ := parts
    have enough : program.text.size + 1 ≤ 7 := by omega
    obtain ⟨-, -, -, ends⟩ := forward_run_ends h forward true enough
    rcases ends with ⟨-, halted⟩ | ⟨error, failed⟩
    · exact ⟨program, rfl, forward, size, steps, ok, halted⟩
    · rw [ok] at failed
      cases failed

end Program

end TinyMips
