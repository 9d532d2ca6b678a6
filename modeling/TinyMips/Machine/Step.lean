import TinyMips.Datapath.Alu
import TinyMips.Datapath.Branch
import TinyMips.Machine.State

/-!
# One step of the machine

An instruction is fetched, decoded, gets its operands, is executed, accesses memory and is written
back. Each stage is a function from what it reads to its report; `Machine.step` composes them and
carries out their effects. A fault leaves the state as it was, apart from the step that was
counted and the reports of the stages that were completed.
-/

namespace TinyMips

namespace Stage

/-- Fetches the instruction at an address. Past the last placed instruction an `exit` runs
instead. -/
def fetchAt (text : TextStore) (pc : Address) : Except Fault Fetched :=
  match text.fetch pc with
  | .error error => .error (.address .fetch error)
  | .ok none => .ok { npc := pc + 4, instruction := .implicitExit pc, implicit := true }
  | .ok (some instruction) =>
    match instruction.label? with
    | some label => .error (.unresolved pc label)
    | none =>
      if instruction.assembled then .ok { npc := pc + 4, instruction, implicit := false }
      else .error (.notAssembled pc)

/-- Looks up the signals of an opcode. -/
def decodeOpcode (opcode : Opcode) : Decoded :=
  { opcode, signals := .ofOpcode opcode }

/-- Reads the operands. The second source is not read when it is the destination. -/
def readOperandsOf (registers : RegisterFile) (signals : ControlSignals) (operands : Operands) :
    OperandsRead :=
  let (rs, rt) := operands.sources
  let read (r : Reg) : RegisterRead := { reg := r, value := registers.read r }
  { rs := read rs
    rt := if signals.dest = .target then none else some (read rt)
    imm := operands.operandImmediate? }

/-- The value of the second source; zero when it was not read. -/
def rtValue (read : OperandsRead) : Word :=
  (read.rt.map RegisterRead.value).getD 0

/-- Runs the ALU and computes the candidate target. A missing immediate counts as zero. -/
def executeOn (signals : ControlSignals) (npc : Address) (read : OperandsRead) : Executed :=
  let imm := read.imm.getD 0
  let src1 := match signals.src1 with
    | .source1 => read.rs.value
    | .npc => npc.toInt64
  let src2 := match signals.src2 with
    | .source2 => rtValue read
    | .immediate => imm
  { src1, src2, op := signals.alu
    result := Alu.execute signals.alu src1 src2
    target := BranchUnit.target? signals.nextPc npc imm }

/-- The outcome of a branch; other instructions have none. -/
def branchOutcome (signals : ControlSignals) (result : Word) : Option Bool :=
  if signals.nextPc = .branch then some (BranchUnit.taken signals.cond result) else none

/-- Decides the next instruction and carries out the access to data memory. The address must be
supported, or nothing is read or written. -/
def accessMemory (data : DataStore) (signals : ControlSignals) (npc : Address)
    (executed : Executed) (stored : Word) : Except Fault (Accessed × DataStore) :=
  let taken := branchOutcome signals executed.result
  let nextPc := BranchUnit.nextPc signals.nextPc npc executed.target (taken.getD false)
  let address := executed.result
  match signals.mem with
  | .none => .ok ({ taken, nextPc, access := none }, data)
  | .load =>
    match data.load address with
    | .error error => .error (.address .memoryAccess error)
    | .ok value => .ok ({ taken, nextPc, access := some (.load address value) }, data)
  | .store =>
    match data.store address stored with
    | .error error => .error (.address .memoryAccess error)
    | .ok data => .ok ({ taken, nextPc, access := some (.store address stored) }, data)

/-- The register that the signals select among the operands; there is none where they do not fit
together. -/
def destination? (select : DestSelect) (operands : Operands) : Option Reg :=
  match select, operands with
  | .target, .immediate _ rt _ _ => some rt
  | .dest, .register _ _ rd => some rd
  | .link, _ => some .link
  | _, _ => none

/-- The value that the signals select for the destination. -/
def writeBackValue (select : WriteBackSelect) (result : Word) (access : Option MemoryAccess) :
    Word :=
  match select, access with
  | .alu, _ => result
  | .mem, some (.load _ value) => value
  | .mem, _ => 0

end Stage

namespace Machine

/-- The report of the last stage and the machine after it: the instruction is counted, its result
is offered to its destination, and the next instruction is the selected one, or none if this one
ends the run. -/
def writeBack (machine : Machine) (instruction : Instruction) (signals : ControlSignals)
    (result : Word) (accessed : Accessed) : WrittenBack × Machine :=
  let machine := { machine with
    statistics := machine.statistics.retire instruction.opcode accessed.taken }
  if instruction.opcode.isTerminal then (.terminal, { machine with pc := none })
  else
    let machine := { machine with pc := some accessed.nextPc }
    match Stage.destination? signals.dest instruction.operands with
    | none => (.nothing, machine)
    | some r =>
      let value := Stage.writeBackValue signals.wb result accessed.access
      let (committed, machine) := machine.writeRegister r value instruction.line
      let machine := if committed then machine
        else { machine with statistics := machine.statistics.discard }
      (.write r value committed, machine)

/-- Executes the instruction at the program counter. A machine that has halted stays as it is. -/
def step (machine : Machine) : Except Fault Unit × Machine :=
  match machine.pc with
  | none => (.ok (), machine)
  | some pc =>
    let machine := { machine with steps := machine.steps + 1 }
    -- a refused fetch leaves no report, but its step counts
    match Stage.fetchAt machine.text pc with
    | .error fault => (.error fault, machine)
    | .ok fetched =>
      let machine := if fetched.implicit then
          { machine with log := machine.log.warn none (.implicitExit pc) }
        else machine
      let instruction := fetched.instruction
      let decoded := Stage.decodeOpcode instruction.opcode
      let signals := decoded.signals
      let read := Stage.readOperandsOf machine.registers signals instruction.operands
      let executed := Stage.executeOn signals fetched.npc read
      let machine := machine.record pc (.fetch fetched)
      let machine := machine.record pc (.decode decoded)
      let machine := machine.record pc (.readOperands read)
      let machine := machine.record pc (.execute executed)
      -- from here on only the access to data can fail, and nothing is written before it
      match Stage.accessMemory machine.data signals fetched.npc executed (Stage.rtValue read) with
      | .error fault => (.error fault, machine)
      | .ok (accessed, data) =>
        let machine := { machine with data }
        let machine := machine.record pc (.memoryAccess accessed)
        let (written, machine) := machine.writeBack instruction signals executed.result accessed
        (.ok (), machine.record pc (.writeBack written))

end Machine

end TinyMips
