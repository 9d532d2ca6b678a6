import TinyMips.Architecture.State

/-!
# Replaying a trace

A trace tells enough to repeat its run: the memory reports give the stores and the next
instructions, and the write-back reports the registers and the end. Replaying applies them to a
state in order.
-/

namespace TinyMips

/-- The state after one report. Reports of the first four stages change nothing. -/
def Architecture.apply (state : Architecture) : StageReport → Architecture
  | .memoryAccess accessed =>
    let state := state.goTo accessed.nextPc
    match accessed.access with
    | some (.store address value) =>
      { state with data := (state.data.store address value).toOption.getD state.data }
    | _ => state
  | .writeBack (.write r value true) => state.assign r value
  | .writeBack .terminal => { state with pc := none }
  | _ => state

/-- The state after all reports of a trace. -/
def Architecture.replay (state : Architecture) (trace : Array TraceBlock) : Architecture :=
  trace.foldl (fun state block => state.apply block.report) state

end TinyMips
