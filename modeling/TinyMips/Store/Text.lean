import TinyMips.Isa.Instruction

/-!
# The instruction store

The instructions behind the instruction region, in placement order. Placing an instruction gives
it the next address; fetching maps an address back to its instruction.
-/

namespace TinyMips

/-- The contents of the instruction region. -/
structure TextStore where
  instructions : Array Instruction := #[]
  /-- No more instructions are placed than the region has room for. -/
  size_le : instructions.size ≤ 256 := by decide

namespace TextStore

/-- The number of placed instructions. -/
def size (store : TextStore) : Nat :=
  store.instructions.size

/-- The address after the last placed instruction. -/
def nextAddress (store : TextStore) : Address :=
  Region.text.addressOf store.size

/-- Whether no further instruction can be placed. -/
def isFull (store : TextStore) : Bool :=
  Region.text.capacity ≤ store.size

/-- The address that the next placed instruction will get, while there is room. -/
def free? (store : TextStore) : Option Address :=
  if store.isFull then none else some store.nextAddress

/-- The store with one more instruction, at the next address. A full store is left as it was. -/
def push (store : TextStore) (inst : Instruction) : TextStore :=
  if h : store.instructions.size < 256 then
    { instructions := store.instructions.push { inst with address := store.nextAddress }
      size_le := by rw [Array.size_push]; omega }
  else store

/-- The store with every instruction replaced by its image. -/
def map (store : TextStore) (f : Instruction → Instruction) : TextStore :=
  { instructions := store.instructions.map f, size_le := by simpa using store.size_le }

/-- The store with the instruction at an index replaced by its image. -/
def modify (store : TextStore) (index : Nat) (f : Instruction → Instruction) : TextStore :=
  { instructions := store.instructions.modify index f, size_le := by simpa using store.size_le }

/-- The instruction at an index. -/
def get? (store : TextStore) (index : Nat) : Option Instruction :=
  store.instructions[index]?

/-- The instruction at an address: nothing where the address is supported but lies past the last
placed instruction. -/
def fetch (store : TextStore) (pc : Address) : Except AddressError (Option Instruction) :=
  (Region.text.check pc).map store.get?

/-- A store with room grows by one instruction, which gets the next address. -/
theorem instructions_push {store : TextStore} (h : store.isFull = false) (inst : Instruction) :
    (store.push inst).instructions =
      store.instructions.push { inst with address := store.nextAddress } := by
  have room : store.instructions.size < 256 := Nat.not_le.mp (of_decide_eq_false h)
  simp [push, room]

/-- A full store takes no more instructions. -/
theorem push_of_full {store : TextStore} (h : store.isFull = true) (inst : Instruction) :
    store.push inst = store := by
  have full : ¬store.instructions.size < 256 := Nat.not_lt.mpr (of_decide_eq_true h)
  simp [push, full]

end TextStore

end TinyMips
