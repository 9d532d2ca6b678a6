import TinyMips.Address.Region

/-!
# The data store

Two hundred and fifty-six double words behind the data region. Assembly appends values at the next
free slot; the machine loads and stores at any supported address. A slot that was never written
reads zero, and only written slots are listed.
-/

namespace TinyMips

/-- The contents of the data region. -/
structure DataStore where
  /-- Each slot's value, or nothing where none was written. -/
  slots : Vector (Option Word) 256 := Vector.replicate 256 none
  /-- How many values were appended; the next one goes into this slot. -/
  placed : Nat := 0
  deriving DecidableEq

namespace DataStore

/-- Whether no further value can be appended. -/
def isFull (store : DataStore) : Bool :=
  Region.data.capacity ≤ store.placed

/-- The address of the slot after the last appended value. -/
def nextAddress (store : DataStore) : Address :=
  Region.data.addressOf store.placed

/-- The address that the next appended value will get, while there is room. -/
def free? (store : DataStore) : Option Address :=
  if store.isFull then none else some store.nextAddress

/-- The store with a value in a slot. An index past the last slot leaves it as it was. -/
def put (store : DataStore) (index : Nat) (value : Word) : DataStore :=
  { store with slots := store.slots.setIfInBounds index (some value) }

/-- The store with one more value, over whatever its slot held. A full store is left as it was. -/
def push (store : DataStore) (value : Word) : DataStore :=
  if store.isFull then store
  else { store.put store.placed value with placed := store.placed + 1 }

/-- The value of a slot; slots that were never written read zero. -/
def get (store : DataStore) (index : Nat) : Word :=
  (store.slots[index]?.join).getD 0

/-- The value at an address that the datapath computed. -/
def load (store : DataStore) (address : Word) : Except AddressError Word :=
  (Region.data.checkValue address).map store.get

/-- The store after a write to an address that the datapath computed. -/
def store (contents : DataStore) (address value : Word) : Except AddressError DataStore :=
  (Region.data.checkValue address).map fun index => contents.put index value

/-- The written slots as addresses and values, by address. -/
def written (store : DataStore) : List (Address × Word) :=
  (List.range 256).filterMap fun index =>
    store.slots[index]?.join.map fun value => (Region.data.addressOf index, value)

/-- A slot reads what was last put into it, and the others keep their values. -/
theorem get_put (store : DataStore) {index : Nat} (value : Word) (h : index < 256) (j : Nat) :
    (store.put index value).get j = if j = index then value else store.get j := by
  by_cases hj : j = index
  · subst hj
    simp [get, put, h]
  · have hne : index ≠ j := fun he => hj he.symm
    simp [get, put, hj, hne]

/-- Appending to a store that is not full uses its next slot. -/
theorem push_of_not_full {store : DataStore} (h : store.isFull = false) (value : Word) :
    store.push value = { store.put store.placed value with placed := store.placed + 1 } := by
  simp [push, h]

/-- A full store takes no more values. -/
theorem push_of_full {store : DataStore} (h : store.isFull = true) (value : Word) :
    store.push value = store := by
  simp [push, h]

end DataStore

end TinyMips
