import TinyMips.Json.Printer
import TinyMips.Machine.State

/-!
# Run documents

Everything that a run produced as one JSON value: the warnings of the assembly and of the run, the
trace, the final state, the statistics and the fault, if one ended the run.
-/

namespace TinyMips

/-- A word as a number. -/
def Word.toJson (value : Word) : Json :=
  .ofInt value.toInt

/-- An address as a number. -/
def Address.toJson (address : Address) : Json :=
  .ofNat address.toNat

/-- A register as its index. -/
def Reg.toJson (r : Reg) : Json :=
  .ofNat r.val

/-- A log entry with its line. -/
def LogEntry.toJson (entry : LogEntry) : Json :=
  .object [
    ("line", .ofOption .ofNat entry.line),
    ("message", .ofText entry.message.text)]

/-- Both parts of a log. -/
def Log.toJson (log : Log) : Json :=
  .object [
    ("errors", .array (log.errors.toList.map LogEntry.toJson)),
    ("warnings", .array (log.warnings.toList.map LogEntry.toJson))]

/-- A row of control signals by their names. -/
def ControlSignals.toJson (signals : ControlSignals) : Json :=
  .object [
    ("dest", .ofText signals.dest.name),
    ("src1", .ofText signals.src1.name),
    ("src2", .ofText signals.src2.name),
    ("alu", .ofText signals.alu.name),
    ("mem", .ofText signals.mem.name),
    ("wb", .ofText signals.wb.name),
    ("next_pc", .ofText signals.nextPc.name),
    ("cond", .ofText signals.cond.name)]

/-- An access to data memory with its kind. -/
def MemoryAccess.toJson : MemoryAccess → Json
  | load address value =>
    .object [
      ("kind", .ofText "load"), ("addr", address.toJson), ("value", value.toJson)]
  | store address value =>
    .object [
      ("kind", .ofText "store"), ("addr", address.toJson), ("value", value.toJson)]

/-- The fields of a report, without its stage. -/
def StageReport.fields : StageReport → List (String × Json)
  | fetch fetched => [
      ("npc", fetched.npc.toJson),
      ("instruction", .ofText fetched.instruction.disassemble),
      ("synthesized", .bool fetched.implicit)]
  | decode decoded => [
      ("opcode", .ofText decoded.opcode.mnemonic),
      ("signals", decoded.signals.toJson)]
  | readOperands read => [
      ("rs", read.rs.reg.toJson),
      ("rs_value", read.rs.value.toJson),
      ("rt", .ofOption (fun rt => rt.reg.toJson) read.rt),
      ("rt_value", .ofOption (fun rt => rt.value.toJson) read.rt),
      ("imm", .ofOption Word.toJson read.imm)]
  | execute executed => [
      ("src1", executed.src1.toJson),
      ("src2", executed.src2.toJson),
      ("op", .ofText executed.op.name),
      ("result", executed.result.toJson),
      ("target", .ofOption Address.toJson executed.target)]
  | memoryAccess accessed => [
      ("taken", .ofOption .bool accessed.taken),
      ("next_pc", accessed.nextPc.toJson),
      ("access", .ofOption MemoryAccess.toJson accessed.access)]
  | writeBack .terminal => [
      ("dest", .null), ("value", .null), ("committed", .bool false), ("terminal", .bool true)]
  | writeBack .nothing => [
      ("dest", .null), ("value", .null), ("committed", .bool false), ("terminal", .bool false)]
  | writeBack (.write reg value committed) => [
      ("dest", reg.toJson), ("value", value.toJson), ("committed", .bool committed),
      ("terminal", .bool false)]

/-- A block of the trace. -/
def TraceBlock.toJson (block : TraceBlock) : Json :=
  .object [
    ("step", .ofNat block.step),
    ("pc", block.pc.toJson),
    ("report", .object (("stage", .ofText block.report.stage.name) :: block.report.fields))]

/-- The blocks of a trace. -/
def traceToJson (trace : Array TraceBlock) : Json :=
  .array (trace.toList.map TraceBlock.toJson)

/-- A pair of numbers as a list. -/
def pairToJson {α β : Type} (first : α → Json) (second : β → Json) (pair : α × β) : Json :=
  .array [first pair.1, second pair.2]

/-- Where a run stands. -/
def Snapshot.toJson (snapshot : Snapshot) : Json :=
  .object [
    ("pc", .ofOption Address.toJson snapshot.pc),
    ("registers", .array (snapshot.registers.map (pairToJson Reg.toJson Word.toJson))),
    ("memory", .array (snapshot.memory.map (pairToJson Address.toJson Word.toJson)))]

/-- The counters of a run. -/
def Statistics.toJson (stats : Statistics) : Json :=
  .object [
    ("instructions_retired", .ofNat stats.retired),
    ("inst_alu", .ofNat stats.alu),
    ("inst_load", .ofNat stats.loads),
    ("inst_store", .ofNat stats.stores),
    ("branches_taken", .ofNat stats.taken),
    ("branches_not_taken", .ofNat stats.notTaken),
    ("inst_jump", .ofNat stats.jumps),
    ("inst_other", .ofNat stats.other),
    ("discarded_writes", .ofNat stats.discarded)]

/-- The document of a run that ended with or without a fault. -/
def runDocument (machine : Machine) (buildLog : Log) (fault : Option Fault) : Json :=
  .object [
    ("build_warnings", buildLog.toJson),
    ("runtime_warnings", machine.log.toJson),
    ("trace", traceToJson machine.trace),
    ("state", machine.snapshot.toJson),
    ("stats", machine.statistics.toJson),
    ("error", .ofOption (fun fault => .ofText fault.message) fault)]

end TinyMips
