import TinyMips.Diagnostic.Log
import TinyMips.Isa.Instruction
import TinyMips.Store.Labels
import TinyMips.Store.Text

/-!
# Linking

Each label reference is replaced by an immediate: the word address of the label for loads, stores
and jumps, and for branches the distance in instruction words from the instruction after the
branch. Instructions are linked one by one and independently, and a reference that cannot be
linked is reported and left as it was.
-/

namespace TinyMips

namespace Instruction

/-- The region that the labels of an opcode must lie in. -/
def labelRegion (op : Opcode) : Region :=
  if op.format = .memory then .data else .text

/-- The distance in instruction words from the instruction after one's own address to a target. -/
def branchOffset (own target : Address) : Word :=
  Word.ofBytes (target.toInt64 - (own + 4).toInt64)

/-- The immediate that stands for a label in an instruction. -/
def labelImmediate (inst : Instruction) (labels : LabelTable) (name : String) :
    Except Message Word :=
  match labels.get? name with
  | none => .error (.labelNotFound name)
  | some target =>
    match (labelRegion inst.opcode).check target with
    | .error error => .error (.labelAddress name error)
    | .ok _ =>
      if inst.opcode.format = .branch then
        let offset := branchOffset inst.address target
        if offset.fits16 then .ok offset else .error (.labelOffset name offset)
      else .ok (Word.ofBytes target.toInt64)

/-- The immediate of an instruction's label reference, if it has one, or why there is none. -/
def link? (inst : Instruction) (labels : LabelTable) : Option (Except Message Word) :=
  inst.label?.map (inst.labelImmediate labels)

/-- The instruction with its label reference replaced, where that succeeds. -/
def link (inst : Instruction) (labels : LabelTable) : Instruction :=
  match inst.link? labels with
  | some (.ok value) => { inst with operands := inst.operands.withImmediate (.literal value) }
  | _ => inst

/-- The report of a label reference that cannot be replaced. -/
def linkError? (inst : Instruction) (labels : LabelTable) : Option LogEntry :=
  match inst.link? labels with
  | some (.error message) => some { line := inst.line, message }
  | _ => none

end Instruction

namespace TextStore

/-- The store with every label reference replaced that can be. -/
def link (store : TextStore) (labels : LabelTable) : TextStore :=
  store.map fun inst => inst.link labels

/-- The reports of the references that cannot be replaced, in order. -/
def linkErrors (store : TextStore) (labels : LabelTable) : Array LogEntry :=
  store.instructions.filterMap fun inst => inst.linkError? labels

end TextStore

end TinyMips
