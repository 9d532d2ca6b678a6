import TinyMips.Decimal.Fixed
import TinyMips.Machine.State

/-!
# Reports as text

The parts of a printed report, each as a list of lines: logs below a heading, the final state, and
the statistics with the share of each category.
-/

namespace TinyMips

/-- A text with blanks behind it, up to the given width. -/
def Text.padRight (width : Nat) (text : String) : String :=
  text ++ String.ofList (List.replicate (width - text.length) ' ')

/-- A text with blanks in front of it, up to the given width. -/
def Text.padLeft (width : Nat) (text : String) : String :=
  String.ofList (List.replicate (width - text.length) ' ') ++ text

/-- The entries of a log below a heading; an empty log has no lines. -/
def Log.lines (heading : String) (log : Log) : List String :=
  if log.isEmpty then []
  else heading ::
    (log.errors.toList.map (fun entry => "  error: " ++ entry.text) ++
      log.warnings.toList.map fun entry => "  warning: " ++ entry.text)

namespace Snapshot

/-- The line of the program counter. -/
def pcLine (snapshot : Snapshot) : String :=
  match snapshot.pc with
  | some pc => s!"pc: {pc.text}"
  | none => "pc: halted"

/-- The lines of the registers, each with its index and its alias. -/
def registerLines (snapshot : Snapshot) : List String :=
  "registers:" :: snapshot.registers.map fun (r, value) =>
    let index := Text.padRight 2 (toString r.val)
    let name := Text.padLeft 4 r.name
    s!"  r{index} ({name}) = {value.text}"

/-- The lines of the data slots. -/
def memoryLines (snapshot : Snapshot) : List String :=
  "memory:" :: snapshot.memory.map fun (address, value) => s!"  [{address.text}] = {value.text}"

end Snapshot

namespace Statistics

/-- The share of a count in all completed instructions, in percent, computed in doubles and
rounded to two places. Nothing completed gives zero. -/
def percent (stats : Statistics) (count : Nat) : String :=
  let share : Float :=
    if stats.retired = 0 then 0 else Float.ofNat count / Float.ofNat stats.retired * 100
  Decimal.ofFloat 2 share

/-- The time that a number of nanoseconds takes, in seconds to four places. -/
def secondsText (nanoseconds : Nat) : String :=
  Decimal.ofQuotient 4 nanoseconds 1000000000

/-- The lines of the statistics of a run that took so many nanoseconds. -/
def lines (stats : Statistics) (nanoseconds : Nat) : List String :=
  let frame := "=========================================================="
  let rule := "----------------------------------------------------------"
  let share (count : Nat) := s!"{count} ({stats.percent count}%)"
  ["", frame, "RUN STATISTICS", frame,
    s!"host_seconds             {secondsText nanoseconds} s",
    s!"sim_insts                {stats.retired}",
    rule, "INSTRUCTION MIX",
    s!"  alu                    {share stats.alu}",
    s!"  load                   {share stats.loads}",
    s!"  store                  {share stats.stores}",
    s!"  branch                 {share stats.branches}",
    s!"    taken                {stats.taken}",
    s!"    not_taken            {stats.notTaken}",
    s!"  jump                   {share stats.jumps}",
    s!"  other                  {share stats.other}",
    rule,
    s!"r0_writes_discarded      {stats.discarded}",
    frame]

end Statistics

end TinyMips
