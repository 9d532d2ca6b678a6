import TinyMips.Load
import TinyMips.Machine.Simulation
import TinyMips.Report.Document
import TinyMips.Report.Summary
import TinyMips.Report.Trace

/-!
# Commands

What the two commands do with the files they are given. `run` assembles a program and executes it;
`check` only assembles it. Performing a command gives an outcome, and showing the outcome gives
what is printed and the exit code, so that the time a run took can be measured in between.
-/

namespace TinyMips

/-- How a run is shown. -/
structure RunOptions where
  /-- One JSON document instead of text. -/
  json : Bool := false
  /-- No trace in the text. -/
  quiet : Bool := false
  deriving DecidableEq

/-- A command with its files. -/
inductive Command where
  | run (program : SourceFile) (settings : Option SourceFile) (options : RunOptions)
  | check (program : SourceFile)

/-- What came of a command. -/
inductive Outcome where
  /-- A file could not be loaded. -/
  | notLoaded (error : LoadError)
  /-- A program ran. -/
  | ran (simulation : Simulation) (result : Except Fault Unit) (settings : Settings)
    (options : RunOptions)
  /-- A program was assembled. -/
  | checked (program : Program)

/-- What a command prints, and its exit code. -/
structure Printout where
  exitCode : UInt32
  stdout : String := ""
  stderr : String := ""

/-! ## Performing -/

namespace Command

/-- The settings of a run: those of its file, or the defaults when none is given. -/
def settingsOf : Option SourceFile → Except LoadError Settings
  | some file => file.settings
  | none => .ok {}

/-- Runs a program from its file. Its settings are loaded first. -/
def performRun (program : SourceFile) (settings : Option SourceFile) (options : RunOptions) :
    Outcome :=
  match settingsOf settings with
  | .error error => .notLoaded error
  | .ok settings =>
    match program.program with
    | .error error => .notLoaded error
    | .ok program =>
      let (result, simulation) :=
        (Simulation.load program settings.trace settings.maxSteps.toNat).run
      .ran simulation result settings options

/-- Carries out a command. -/
def perform : Command → Outcome
  | run program settings options => performRun program settings options
  | check program =>
    match program.program with
    | .error error => .notLoaded error
    | .ok program => .checked program

end Command

/-! ## Showing -/

namespace Outcome

/-- Lines with a newline after each. -/
def unlines (lines : List String) : String :=
  lines.foldl (fun text line => text ++ line ++ "\n") ""

/-- Whether the command succeeded. -/
def succeeded : Outcome → Bool
  | notLoaded _ => false
  | ran _ (.ok ()) _ _ => true
  | ran _ (.error _) _ _ => false
  | checked _ => true

/-- The lines of a failed assembly; other failures have none. -/
def failureLines : LoadError → List String
  | .build error => error.log.lines "[!] Assembly failed:"
  | _ => []

/-- The line that tells how a run ended. -/
def resultLine : Except Fault Unit → String
  | .ok () => "[*] Program terminated normally"
  | .error fault => s!"[!] FATAL: {fault.message}"

/-- The heading of the trace and the trace, unless it is empty or not wanted. -/
def traceSection (machine : Machine) (quiet : Bool) : String :=
  if quiet ∨ machine.trace.isEmpty then ""
  else "\n[*] Execution trace:\n" ++ traceText machine.trace

/-- The lines of the final state, as far as the settings ask for them. -/
def stateLines (machine : Machine) (settings : Settings) : List String :=
  let snapshot := machine.snapshot
  ["", snapshot.pcLine] ++
    (if settings.printRegisters then snapshot.registerLines else []) ++
    (if settings.printMemory then snapshot.memoryLines else [])

/-- The text of a run. -/
def runText (simulation : Simulation) (result : Except Fault Unit) (settings : Settings)
    (quiet : Bool) (nanoseconds : Nat) : String :=
  let machine := simulation.machine
  unlines (simulation.buildLog.lines "[*] Assembly warnings:") ++
    traceSection machine quiet ++
    unlines (machine.log.lines "\n[*] Runtime warnings:" ++ ["", resultLine result] ++
      stateLines machine settings ++ machine.statistics.lines nanoseconds)

/-- The fault that ended a run, if one did. -/
def faultOf? : Except Fault Unit → Option Fault
  | .ok () => none
  | .error fault => some fault

/-- The lines of an assembled program: its warnings, its sizes, its labels and its text. -/
def programLines (program : Program) : List String :=
  let instructions := program.text.size
  let words := program.data.placed
  let labels := program.labels.entries
  program.log.lines "[*] Assembly warnings:" ++
    [s!"[*] {instructions} instruction(s), {words} data word(s), {labels.length} label(s)"] ++
    (if labels.isEmpty then []
      else "labels:" :: labels.map fun (name, address) =>
        s!"  {Text.padRight 16 name} {address.text}") ++
    "text:" :: program.text.instructions.toList.map fun inst =>
      s!"  {inst.address.text}  {inst.disassemble}"

/-- What the command prints and its exit code, for a command that took so many nanoseconds. -/
def printout (outcome : Outcome) (nanoseconds : Nat) : Printout :=
  let exitCode : UInt32 := if outcome.succeeded then 0 else 1
  match outcome with
  | notLoaded error =>
    { exitCode, stdout := unlines (failureLines error), stderr := s!"\n[!] {error.message}\n" }
  | ran simulation result settings options =>
    let stdout :=
      if options.json then
        (runDocument simulation.machine simulation.buildLog (faultOf? result)).print ++ "\n"
      else runText simulation result settings options.quiet nanoseconds
    { exitCode, stdout }
  | checked program => { exitCode, stdout := unlines (programLines program) }

end Outcome

end TinyMips
