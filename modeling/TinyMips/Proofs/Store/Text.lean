import TinyMips.Proofs.Address.Region
import TinyMips.Store.Text

/-!
# The instruction store as a list

Placing a list of instructions keeps as many as there is room for, each at the address of its index
(`TextStore.toList_foldl_push`, `TextStore.get?_foldl_push`).
-/

namespace TinyMips.TextStore

theorem eq_of_instructions {store other : TextStore}
    (h : store.instructions = other.instructions) : store = other := by
  cases store
  cases other
  cases h
  rfl

/-- A store is known by the instructions at its indices. -/
theorem eq_of_get? {store other : TextStore}
    (same : ∀ index, other.get? index = store.get? index) : other = store :=
  eq_of_instructions (Array.ext_getElem? same)

theorem isFull_eq {store other : TextStore} (size : other.size = store.size) :
    other.isFull = store.isFull := by
  unfold isFull
  rw [size]

theorem le_size_of_full {store : TextStore} (h : store.isFull = true) : 256 ≤ store.size :=
  of_decide_eq_true h

theorem size_lt_of_not_full {store : TextStore} (h : store.isFull = false) : store.size < 256 :=
  Nat.not_le.mp (of_decide_eq_false h)

/-- While there is room, the free address is that of the index after the last instruction. -/
theorem free?_eq (store : TextStore) :
    store.free? =
      if store.size < 256 then some (Region.text.addressOf store.size) else none := by
  unfold free?
  cases full : store.isFull with
  | true => rw [if_pos rfl, if_neg (Nat.not_lt.mpr (le_size_of_full full))]
  | false => rw [if_neg Bool.false_ne_true, if_pos (size_lt_of_not_full full), nextAddress]

theorem size_push {store : TextStore} (h : store.isFull = false) (inst : Instruction) :
    (store.push inst).size = store.size + 1 := by
  unfold size
  rw [instructions_push h, Array.size_push]

/-- The store with one more instruction, if there is one. -/
def extend (store : TextStore) (inst? : Option Instruction) : TextStore :=
  inst?.elim store store.push

/-- Placing never takes an instruction away. -/
theorem size_le_size_extend (store : TextStore) (inst? : Option Instruction) :
    store.size ≤ (store.extend inst?).size := by
  cases inst? with
  | none => exact Nat.le_refl _
  | some inst =>
    show store.size ≤ (store.push inst).size
    cases full : store.isFull with
    | true => rw [push_of_full full]
    | false =>
      rw [size_push full]
      omega

/-- Placed instructions follow those that were there, as far as there is room. -/
theorem toList_foldl_push (insts : List Instruction) (store : TextStore) :
    (insts.foldl push store).instructions.toList =
      store.instructions.toList ++
        (insts.take (256 - store.size)).mapIdx fun i inst =>
          { inst with address := Region.text.addressOf (store.size + i) } := by
  induction insts generalizing store with
  | nil => simp
  | cons inst rest ih =>
    rw [List.foldl_cons, ih]
    cases full : store.isFull with
    | true =>
      have noRoom : 256 - store.size = 0 := by
        have := le_size_of_full full
        omega
      simp [push_of_full full, noRoom]
    | false =>
      have room : 256 - store.size = 256 - (store.size + 1) + 1 := by
        have := size_lt_of_not_full full
        omega
      have later (i : Nat) : store.size + 1 + i = store.size + (i + 1) := by omega
      rw [size_push full, instructions_push full, room, List.take_succ_cons, List.mapIdx_cons,
        Array.toList_push, List.append_assoc]
      simp only [List.singleton_append, nextAddress, Nat.add_zero, later]

/-- The instruction at an index after placing a list into an empty store. -/
theorem get?_foldl_push (insts : List Instruction) (index : Nat) :
    (insts.foldl push {}).get? index =
      (insts.take 256)[index]?.map fun inst =>
        { inst with address := Region.text.addressOf index } := by
  unfold get?
  rw [← Array.getElem?_toList, toList_foldl_push]
  simp [size]

/-- As many instructions are placed as there is room for. -/
theorem size_foldl_push (insts : List Instruction) (store : TextStore) :
    (insts.foldl push store).size = min 256 (store.size + insts.length) := by
  have placed := congrArg List.length (toList_foldl_push insts store)
  rw [Array.length_toList, List.length_append, Array.length_toList, List.length_mapIdx,
    List.length_take] at placed
  have bound := store.size_le
  unfold size at *
  omega

/-- A store grows by an instruction if there is one and room for it. -/
theorem size_extend (store : TextStore) (inst? : Option Instruction) :
    (store.extend inst?).size = min 256 (store.size + inst?.toList.length) := by
  have size := size_foldl_push inst?.toList store
  cases inst? <;> exact size

@[simp] theorem size_map (store : TextStore) (f : Instruction → Instruction) :
    (store.map f).size = store.size := by
  simp [map, size]

@[simp] theorem get?_map (store : TextStore) (f : Instruction → Instruction) (index : Nat) :
    (store.map f).get? index = (store.get? index).map f := by
  simp [map, get?]

theorem get?_modify (store : TextStore) (index : Nat) (f : Instruction → Instruction)
    (other : Nat) :
    (store.modify index f).get? other =
      if index = other then (store.get? other).map f else store.get? other :=
  Array.getElem?_modify

/-- Indices of instructions are those below the size. -/
theorem lt_size_of_get? {store : TextStore} {index : Nat} {inst : Instruction}
    (h : store.get? index = some inst) : index < store.size :=
  (Array.getElem?_eq_some_iff.mp h).1

theorem lt_of_get? {store : TextStore} {index : Nat} {inst : Instruction}
    (h : store.get? index = some inst) : index < 256 :=
  Nat.lt_of_lt_of_le (lt_size_of_get? h) store.size_le

end TinyMips.TextStore
