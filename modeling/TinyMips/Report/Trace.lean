import TinyMips.Machine.Stage

/-!
# The trace as text

Each report is a block: a header with the number of the instruction, the stage and the address,
and indented lines below it.
-/

namespace TinyMips

/-- A name of lower-case words joined by underscores, as capitalised words without them. -/
def Text.capitalised (name : String) : String :=
  String.join ((name.toList.splitOn '_').map fun word => (String.ofList word).capitalize)

/-- The lines of an access to data memory. -/
def MemoryAccess.lines : Option MemoryAccess → List String
  | none => []
  | some (load address value) => [s!"    load [{address.addressText}] -> {value.text}"]
  | some (store address value) => [s!"    store {value.text} -> [{address.addressText}]"]

/-- The lines of a branch outcome. -/
def Accessed.outcomeLines (accessed : Accessed) : List String :=
  match accessed.taken with
  | none => []
  | some true => ["    branch taken"]
  | some false => ["    branch not taken"]

/-- The lines of a set of control signals. -/
def ControlSignals.lines (signals : ControlSignals) : List String :=
  let word := Text.capitalised
  let inputs := s!"dest: {word signals.dest.name}  src1: {word signals.src1.name}"
  let function := s!"src2: {word signals.src2.name}  alu: {word signals.alu.name}"
  let results := s!"mem: {word signals.mem.name}  wb: {word signals.wb.name}"
  let control := s!"next-pc: {word signals.nextPc.name}  cond: {word signals.cond.name}"
  [s!"    {inputs}  {function}", s!"    {results}  {control}"]

namespace StageReport

/-- The lines of a report, below its header. -/
def lines : StageReport → List String
  | fetch fetched =>
    let mark := if fetched.implicit then " (implicit)" else ""
    [s!"    instruction: {fetched.instruction.disassemble}{mark}",
      s!"    npc: {fetched.npc.text}"]
  | decode decoded => s!"    opcode: {decoded.opcode.mnemonic}" :: decoded.signals.lines
  | readOperands read =>
    let register (r : RegisterRead) := s!"    {r.reg.text} = {r.value.text}"
    let imm := (read.imm.map Word.text).getD "-"
    register read.rs :: (read.rt.toList.map register ++ [s!"    imm = {imm}"])
  | execute executed =>
    let function := Text.capitalised executed.op.name
    let inputs := s!"{executed.src1.text}, {executed.src2.text}"
    s!"    {function}({inputs}) = {executed.result.text}" ::
      executed.target.toList.map fun target => s!"    target: {target.text}"
  | memoryAccess accessed =>
    accessed.outcomeLines ++ MemoryAccess.lines accessed.access ++
      [s!"    next-pc: {accessed.nextPc.text}"]
  | writeBack .terminal => ["    terminal: run ends"]
  | writeBack .nothing => ["    no register written"]
  | writeBack (.write reg value committed) =>
    let mark := if committed then "" else " (discarded)"
    [s!"    {reg.text} <- {value.text}{mark}"]

end StageReport

namespace TraceBlock

/-- The text of a block, without a newline at its end. -/
def text (block : TraceBlock) : String :=
  let header := s!"[{block.step}] {block.report.stage.title} @ {block.pc.text}"
  "\n".intercalate (header :: block.report.lines)

end TraceBlock

/-- The text of a trace: every block, with a newline after each. -/
def traceText (trace : Array TraceBlock) : String :=
  trace.foldl (fun text block => text ++ block.text ++ "\n") ""

end TinyMips
