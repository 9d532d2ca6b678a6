import TinyMips.Proofs.Machine.Refinement

/-!
# Where an instruction goes on

`Architecture.successor` is the address at which an instruction goes on, read off its operands
(`Architecture.Leads` has the ways there). An instruction that completes goes on there
(`Architecture.pc_of_perform`), and a step either completes or stays where it is with a fault of
its access to data (`Machine.StepsAt`, `Machine.stepsAt_of_linked`).
-/

namespace TinyMips

namespace Architecture

variable (state : Architecture)

/-- Where an instruction goes on once it completes. Only the condition of a branch can hold. -/
def successor (npc : Address) (op : Opcode) : Operands → Option Address
  | .none => if op.isTerminal then none else some npc
  | .immediate rs rt (.literal imm) .plain =>
    if op.condition (state.read rs).toInt (state.read rt).toInt then
      some (npc + imm.toBytes.toUInt64)
    else some npc
  | .jump (.literal target) => some target.toBytes.toUInt64
  | _ => some npc

theorem successor_plain (npc : Address) (op : Opcode) (rs rt : Reg) (imm : Word) :
    state.successor npc op (.immediate rs rt (.literal imm) .plain) =
      if op.condition (state.read rs).toInt (state.read rt).toInt then
        some (npc + imm.toBytes.toUInt64)
      else some npc := rfl

theorem condition_of_not_branch {op : Opcode} (h : op.format ≠ .branch) (a b : Int) :
    op.condition a b = false := by
  cases op <;> first | rfl | exact absurd rfl h

theorem successor_of_memory {npc : Address} {op : Opcode} {rs rt : Reg} {imm : Word}
    (mode : ImmediateMode) (h : op.format = .memory) :
    state.successor npc op (.immediate rs rt (.literal imm) mode) = some npc := by
  cases mode with
  | wordAddress => rfl
  | plain =>
    rw [successor_plain, condition_of_not_branch (by rw [h]; decide)]
    rfl

/-- An instruction that completes goes on at its successor. -/
theorem pc_of_perform {npc : Address} {op : Opcode} {operands : Operands} {next : Architecture}
    (linked : operands.Linked op) (h : state.perform npc op operands = some (.ok next)) :
    next.pc = state.successor npc op operands := by
  cases linked with
  | none format =>
    rcases Opcode.format_eq_none_iff.mp format with rfl | rfl | rfl
    all_goals
      obtain rfl := Except.ok.inj (Option.some.inj h)
      rfl
  | register rs rt rd format =>
    rcases Opcode.format_eq_register_iff.mp format with rfl | rfl
    all_goals
      obtain rfl := Except.ok.inj (Option.some.inj h)
      rfl
  | arithmetic rs rt value format =>
    obtain rfl := Opcode.format_eq_immediateArith_iff.mp format
    obtain rfl := Except.ok.inj (Option.some.inj h)
    rfl
  | memory rs rt value mode format =>
    rw [successor_of_memory state mode format]
    rcases Opcode.format_eq_memory_iff.mp format with rfl | rfl
    · have loaded := Option.some.inj h
      cases access : state.data.load (state.read rs + mode.offset value) with
      | error error =>
        rw [access] at loaded
        contradiction
      | ok loadedValue =>
        rw [access] at loaded
        obtain rfl := Except.ok.inj loaded
        rfl
    · have stored := Option.some.inj h
      cases access : state.data.store (state.read rs + mode.offset value) (state.read rt) with
      | error error =>
        rw [access] at stored
        contradiction
      | ok data =>
        rw [access] at stored
        obtain rfl := Except.ok.inj stored
        rfl
  | branch rs rt value format =>
    rw [perform_branch state format] at h
    obtain rfl := Except.ok.inj (Option.some.inj h)
    rw [successor_plain]
    unfold branch
    split <;> rfl
  | jump value format =>
    rcases Opcode.format_eq_jump_iff.mp format with rfl | rfl
    all_goals
      obtain rfl := Except.ok.inj (Option.some.inj h)
      rfl

/-- The ways in which an instruction leads to an address. -/
inductive Leads (npc : Address) (op : Opcode) (operands : Operands) (next : Address) : Prop where
  | sequential (eq : next = npc)
  | branch (rs rt : Reg) (imm : Word) (format : op.format = .branch)
    (shape : operands = .immediate rs rt (.literal imm) .plain)
    (taken : op.condition (state.read rs).toInt (state.read rt).toInt = true)
    (eq : next = npc + imm.toBytes.toUInt64)
  | jump (target : Word) (format : op.format = .jump) (shape : operands = .jump (.literal target))
    (eq : next = target.toBytes.toUInt64)

theorem leads_of_successor {npc next : Address} {op : Opcode} {operands : Operands}
    (linked : operands.Linked op) (h : state.successor npc op operands = some next) :
    state.Leads npc op operands next := by
  cases linked with
  | none format =>
    replace h : (if op.isTerminal then none else some npc) = some next := h
    split at h
    · contradiction
    · exact .sequential (Option.some.inj h).symm
  | register rs rt rd format => exact .sequential (Option.some.inj h).symm
  | arithmetic rs rt value format =>
    obtain rfl := Opcode.format_eq_immediateArith_iff.mp format
    exact .sequential (Option.some.inj h).symm
  | memory rs rt value mode format =>
    rw [state.successor_of_memory mode format] at h
    exact .sequential (Option.some.inj h).symm
  | branch rs rt value format =>
    rw [successor_plain] at h
    split at h
    · next taken => exact .branch rs rt value format rfl taken (Option.some.inj h).symm
    · exact .sequential (Option.some.inj h).symm
  | jump value format => exact .jump value format rfl (Option.some.inj h).symm

theorem dataAddress?_of_not_memory (state : Architecture) {op : Opcode} (operands : Operands)
    (h : op.format ≠ .memory) : state.dataAddress? op operands = none := by
  cases op <;> first | rfl | exact absurd rfl h

end Architecture

namespace Machine

/-- The outcomes of a step at an instruction: it completes and goes on at the successor, or it
fails at a data address that is not supported and stays where it is. -/
inductive StepsAt (machine : Machine) (pc : Address) (inst : Instruction) : Prop where
  | completes (succeeds : machine.step.1 = .ok ())
    (goesOn : machine.step.2.pc =
      machine.architecture.successor (pc + 4) inst.opcode inst.operands)
  | faults (error : AddressError) (fails : machine.step.1 = .error (.address .memoryAccess error))
    (stays : machine.step.2.pc = some pc) (address : Word)
    (accesses : machine.architecture.dataAddress? inst.opcode inst.operands = some address)
    (refused : ¬Region.data.Supports address.toInt)

/-- Only a load or a store can fault. -/
theorem StepsAt.completes_of_not_memory {machine : Machine} {pc : Address} {inst : Instruction}
    (stepped : machine.StepsAt pc inst) (other : inst.opcode.format ≠ .memory) :
    machine.step.1 = .ok () ∧
      machine.step.2.pc =
        machine.architecture.successor (pc + 4) inst.opcode inst.operands := by
  cases stepped with
  | completes succeeds goesOn => exact ⟨succeeds, goesOn⟩
  | faults error fails stays address accesses =>
    rw [Architecture.dataAddress?_of_not_memory _ _ other] at accesses
    cases accesses

/-- A step at a ready instruction with linked operands has one of these outcomes. -/
theorem stepsAt_of_linked {machine : Machine} {pc : Address} {index : Nat} {inst : Instruction}
    (h : machine.pc = some pc) (supported : Region.text.check pc = .ok index)
    (placed : machine.text.get? index = some inst) (ready : inst.isReady = true)
    (linked : inst.operands.Linked inst.opcode) : machine.StepsAt pc inst := by
  obtain ⟨outcome, performed, stepped⟩ := step_of_linked h supported placed ready linked
  have fails := machine.architecture.error_iff_of_perform linked performed
  cases outcome with
  | ok next =>
    obtain ⟨succeeds, state⟩ := Prod.mk.inj stepped
    have pc := congrArg Architecture.pc state
    exact .completes succeeds (pc.trans (machine.architecture.pc_of_perform linked performed))
  | error error =>
    obtain ⟨fault, state⟩ := Prod.mk.inj stepped
    have pc := congrArg Architecture.pc state
    obtain ⟨address, accesses, refused⟩ := fails.mp ⟨error, rfl⟩
    exact .faults error fault (pc.trans h) address accesses refused

end Machine

end TinyMips
