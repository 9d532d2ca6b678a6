import TinyMips.Isa.Opcode

/-!
# Run statistics

Counts of what a run executed: all instructions that completed, and how many of them fell into
each category. Branches are counted by their outcome. The counts are exact; a run whose counters
have 64 bits, and so go on at zero after their largest number, is `Machine.after64`.
-/

namespace TinyMips

/-- The counters of a run. -/
structure Statistics where
  /-- Instructions that completed. -/
  retired : Nat := 0
  /-- `add`, `sub` and `addi`. -/
  alu : Nat := 0
  /-- `lw`. -/
  loads : Nat := 0
  /-- `sw`. -/
  stores : Nat := 0
  /-- Branches that were taken. -/
  taken : Nat := 0
  /-- Branches that were not taken. -/
  notTaken : Nat := 0
  /-- `j` and `jal`. -/
  jumps : Nat := 0
  /-- `nop`, `exit` and `halt`. -/
  other : Nat := 0
  /-- Writes to `r0`. -/
  discarded : Nat := 0
  deriving DecidableEq

namespace Statistics

/-- Counts one completed instruction. The outcome matters for branches only, and one without an
outcome was not taken. -/
def retire (stats : Statistics) (op : Opcode) (taken : Option Bool) : Statistics :=
  let stats := { stats with retired := stats.retired + 1 }
  match op.format with
  | .register | .immediateArith => { stats with alu := stats.alu + 1 }
  | .memory =>
    if op = .lw then { stats with loads := stats.loads + 1 }
    else { stats with stores := stats.stores + 1 }
  | .branch =>
    if taken = some true then { stats with taken := stats.taken + 1 }
    else { stats with notTaken := stats.notTaken + 1 }
  | .jump => { stats with jumps := stats.jumps + 1 }
  | .none => { stats with other := stats.other + 1 }

/-- Counts one write to `r0`. -/
def discard (stats : Statistics) : Statistics :=
  { stats with discarded := stats.discarded + 1 }

/-- All branches, by either outcome. -/
def branches (stats : Statistics) : Nat :=
  stats.taken + stats.notTaken

end Statistics

end TinyMips
