import TinyMips.Diagnostic.Log
import TinyMips.Register.Name

/-!
# The register file

Thirty-two words. Register `r0` is wired to zero: it reads zero whatever was offered to it, and a
write to it is refused with a warning.
-/

namespace TinyMips

/-- The contents of the 32 registers. -/
structure RegisterFile where
  slots : Vector Word 32 := Vector.replicate 32 0

namespace RegisterFile

/-- The value of a register; `r0` is zero. -/
def read (file : RegisterFile) (r : Reg) : Word :=
  if r = .zero then 0 else file.slots[r.val]?.getD 0

/-- The file after a write, or nothing for `r0`, which keeps its zero. -/
def write? (file : RegisterFile) (r : Reg) (value : Word) : Option RegisterFile :=
  if r = .zero then none else some { slots := file.slots.setIfInBounds r value }

/-- Writes a register for the instruction at a source line. A refused write is logged as a
warning; the answer says whether the value was committed. -/
def commit (file : RegisterFile) (log : Log) (r : Reg) (value : Word) (line : Option Nat) :
    Bool × RegisterFile × Log :=
  match file.write? r value with
  | some file => (true, file, log)
  | none => (false, file, log.warn line (.writeDiscarded value))

/-- All values in register order. -/
def values (file : RegisterFile) : List Word :=
  Reg.all.map file.read

/-- The registers that hold another value than zero, in order. -/
def nonZero (file : RegisterFile) : List (Reg × Word) :=
  (Reg.all.map fun r => (r, file.read r)).filter fun (_, value) => value ≠ 0

@[simp] theorem read_zero (file : RegisterFile) : file.read .zero = 0 := by
  simp [read]

/-- A write is refused for `r0` alone. -/
theorem write?_eq_none_iff {file : RegisterFile} {r : Reg} {value : Word} :
    file.write? r value = none ↔ r = .zero := by
  simp [write?]

/-- A register reads what was last written to it, and the others keep their values. -/
theorem read_of_write? {file written : RegisterFile} {r : Reg} {value : Word}
    (h : file.write? r value = some written) (q : Reg) :
    written.read q = if q = r then value else file.read q := by
  unfold write? at h
  split at h
  · exact absurd h nofun
  · next hr =>
    obtain rfl := Option.some.inj h
    by_cases hq : q = r
    · subst hq
      simp [read, hr]
    · have hv : (r : Nat) ≠ q := fun he => hq (Fin.ext he.symm)
      simp [read, hq, Vector.getElem_setIfInBounds_ne _ hv]

end RegisterFile

end TinyMips
