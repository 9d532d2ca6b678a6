import TinyMips.Json.Printer
import TinyMips.Json.Reader
import TinyMips.Json.Record

/-!
# Settings

The settings of a run: whether to trace, how many instructions may start, and which parts of the
final state to show. They are read from a JSON document in which every field may be missing, and
unknown keys count for nothing. A record may be given as an object or as a list of its fields in
order.
-/

namespace TinyMips

/-- The settings of a run. -/
structure Settings where
  /-- Whether the run keeps a trace. -/
  trace : Bool := true
  /-- How many instructions may start. -/
  maxSteps : UInt64 := 100000
  /-- Whether the final registers are shown. -/
  printRegisters : Bool := true
  /-- Whether the final data is shown. -/
  printMemory : Bool := true
  deriving DecidableEq

namespace Settings

/-- Reads the record of run settings. -/
def ofGeneral? (value : Json) : Option Settings := do
  let fields ← value.record? ["trace", "max_steps", "print_registers", "print_memory"]
  let trace ← Json.field? fields "trace" Json.bool? true
  let maxSteps ← Json.field? fields "max_steps" Json.uint64? 100000
  let printRegisters ← Json.field? fields "print_registers" Json.bool? true
  let printMemory ← Json.field? fields "print_memory" Json.bool? true
  return { trace, maxSteps, printRegisters, printMemory }

/-- Reads the whole document, whose one field holds the run settings. -/
def ofJson? (value : Json) : Option Settings := do
  let fields ← value.record? ["general"]
  Json.field? fields "general" ofGeneral? {}

/-- Reads the settings of a JSON text. -/
def ofText? (text : String) : Option Settings :=
  (Json.ofDocument? text.toList).bind ofJson?

/-- The document of the settings. -/
def toJson (settings : Settings) : Json :=
  .object [("general", .object [
    ("trace", .bool settings.trace),
    ("max_steps", .ofNat settings.maxSteps.toNat),
    ("print_registers", .bool settings.printRegisters),
    ("print_memory", .bool settings.printMemory)])]

/-- The settings as a JSON text. -/
def toText (settings : Settings) : String :=
  settings.toJson.print

end Settings

end TinyMips
