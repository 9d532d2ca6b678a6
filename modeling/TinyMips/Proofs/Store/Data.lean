import TinyMips.Proofs.Address.Region
import TinyMips.Store.Data

/-!
# The data store

* **access** — a load and a store succeed exactly at the supported addresses, on the slot of the
  address (`DataStore.load_of_supports`, `DataStore.store_of_supports`); elsewhere they fail
  (`DataStore.load_fails_iff`, `DataStore.store_fails_iff`);
* **listing** — the written slots determine all slots (`DataStore.slots_eq_of_written`);
* **appending** — as many values are placed as there is room for (`DataStore.placed_foldl_push`),
  each in the next slot (`DataStore.slot_foldl_push`), and as long as nothing else is stored, the
  written slots are the placed ones (`DataStore.Dense.foldl_push`).
-/

namespace TinyMips.DataStore

/-! ## Access -/

section Access

variable (contents : DataStore) (address value : Word)

theorem load_of_supports (h : Region.data.Supports address.toInt) :
    contents.load address = .ok (contents.get (Region.data.indexOf address.toUInt64)) := by
  have accepted := (Region.checkValue_eq_ok_iff .data address _).mpr ⟨h, rfl⟩
  unfold load
  rw [accepted]
  rfl

theorem store_of_supports (h : Region.data.Supports address.toInt) :
    contents.store address value =
      .ok (contents.put (Region.data.indexOf address.toUInt64) value) := by
  have accepted := (Region.checkValue_eq_ok_iff .data address _).mpr ⟨h, rfl⟩
  unfold store
  rw [accepted]
  rfl

theorem load_fails_iff :
    (∃ error, contents.load address = .error error) ↔ ¬Region.data.Supports address.toInt := by
  rw [← Region.checkValue_eq_error_iff]
  unfold load
  cases Region.data.checkValue address <;> simp [Except.map]

theorem store_fails_iff :
    (∃ error, contents.store address value = .error error) ↔
      ¬Region.data.Supports address.toInt := by
  rw [← Region.checkValue_eq_error_iff]
  unfold store
  cases Region.data.checkValue address <;> simp [Except.map]

end Access

/-! ## Listing -/

/-- The written slots are listed with their addresses. -/
theorem mem_written {store : DataStore} {index : Nat} (h : index < 256) {value : Word} :
    (Region.data.addressOf index, value) ∈ store.written ↔ store.slots[index] = some value := by
  unfold written
  simp only [List.mem_filterMap, List.mem_range, Option.map_eq_some_iff, Prod.mk.injEq]
  constructor
  · rintro ⟨other, lt, value, slot, address, rfl⟩
    -- slots at the same address are the same slot
    have same : other = index := by
      have back := congrArg Region.data.indexOf address
      rwa [Region.indexOf_addressOf .data (by omega),
        Region.indexOf_addressOf .data (by omega)] at back
    subst same
    simpa [lt] using slot
  · intro slot
    exact ⟨index, h, value, by simpa [h] using slot, rfl, rfl⟩

theorem slots_eq_of_written {store other : DataStore} (h : store.written = other.written) :
    store.slots = other.slots := by
  apply Vector.ext
  intro index lt
  apply Option.ext
  intro value
  rw [← mem_written lt, ← mem_written lt, h]

/-! ## Appending -/

theorem le_placed_of_full {store : DataStore} (h : store.isFull = true) : 256 ≤ store.placed :=
  of_decide_eq_true h

theorem placed_lt_of_not_full {store : DataStore} (h : store.isFull = false) :
    store.placed < 256 :=
  Nat.not_le.mp (of_decide_eq_false h)

/-- While there is room, the free address is that of the slot after the last appended value. -/
theorem free?_eq (store : DataStore) :
    store.free? =
      if store.placed < 256 then some (Region.data.addressOf store.placed) else none := by
  unfold free?
  cases full : store.isFull with
  | true => rw [if_pos rfl, if_neg (Nat.not_lt.mpr (le_placed_of_full full))]
  | false => rw [if_neg Bool.false_ne_true, if_pos (placed_lt_of_not_full full), nextAddress]

/-- As many values are placed as there is room for. -/
theorem placed_foldl_push {store : DataStore} (h : store.placed ≤ 256) (values : List Word) :
    (values.foldl push store).placed = min 256 (store.placed + values.length) := by
  induction values generalizing store with
  | nil =>
    show store.placed = min 256 (store.placed + 0)
    omega
  | cons value rest ih =>
    rw [List.foldl_cons, List.length_cons]
    cases full : store.isFull with
    | true =>
      have := le_placed_of_full full
      rw [push_of_full full, ih h]
      omega
    | false =>
      have room := placed_lt_of_not_full full
      rw [push_of_not_full full, ih (by show store.placed + 1 ≤ 256; omega)]
      show min 256 (store.placed + 1 + rest.length) = _
      omega

/-- A value appended to a store is found in the first slot that was free. -/
theorem slot_foldl_push {store : DataStore} (h : store.placed ≤ 256) (values : List Word)
    (index : Nat) :
    (values.foldl push store).slots[index]?.join =
      if store.placed ≤ index ∧ index < 256 ∧ index < store.placed + values.length then
        values[index - store.placed]?
      else store.slots[index]?.join := by
  induction values generalizing store with
  | nil =>
    rw [if_neg (by simp only [List.length_nil]; omega)]
    rfl
  | cons value rest ih =>
    rw [List.foldl_cons, List.length_cons]
    cases full : store.isFull with
    | true =>
      have := le_placed_of_full full
      rw [push_of_full full, ih h, if_neg (by omega), if_neg (by omega)]
    | false =>
      have room := placed_lt_of_not_full full
      rw [push_of_not_full full, ih (by show store.placed + 1 ≤ 256; omega)]
      show (if store.placed + 1 ≤ index ∧ index < 256 ∧ index < store.placed + 1 + rest.length then
        rest[index - (store.placed + 1)]?
        else (store.slots.setIfInBounds store.placed (some value))[index]?.join) = _
      by_cases here : index = store.placed
      · subst here
        rw [if_neg (by omega), if_pos (by omega)]
        simp [room]
      · rw [Vector.getElem?_setIfInBounds_ne (Ne.symm here)]
        by_cases later : store.placed + 1 ≤ index ∧ index < 256 ∧
            index < store.placed + 1 + rest.length
        · have next : index - store.placed = index - (store.placed + 1) + 1 := by omega
          rw [if_pos later, if_pos (by omega), next, List.getElem?_cons_succ]
        · rw [if_neg later, if_neg (by omega)]

/-- An empty store takes the first values of a list, each into the slot of its index. -/
theorem slot_foldl_push_empty (values : List Word) (index : Nat) :
    (values.foldl push {}).slots[index]?.join = (values.take 256)[index]? := by
  have empty : ({} : DataStore).placed = 0 := rfl
  have unwritten : ({} : DataStore).slots[index]?.join = none := by
    show (Vector.replicate 256 (none : Option Word))[index]?.join = none
    rw [Vector.getElem?_replicate]
    split <;> rfl
  rw [slot_foldl_push (by decide), empty, unwritten, List.getElem?_take, Nat.sub_zero]
  by_cases lt : index < 256
  · by_cases within : index < values.length
    · rw [if_pos (by omega), if_pos lt]
    · rw [if_neg (by omega), if_pos lt, List.getElem?_eq_none (by omega)]
  · rw [if_neg (by omega), if_neg lt]

/-- Whether the written slots are the placed ones. -/
structure Dense (store : DataStore) : Prop where
  placed_le : store.placed ≤ 256
  written (index : Nat) : store.slots[index]?.join.isSome = true ↔ index < store.placed

theorem dense_empty : Dense {} where
  placed_le := by decide
  written index := by
    show (Vector.replicate 256 (none : Option Word))[index]?.join.isSome = true ↔ index < 0
    rw [Vector.getElem?_replicate]
    split <;> simp

theorem Dense.push {store : DataStore} (h : store.Dense) (value : Word) :
    (store.push value).Dense := by
  cases full : store.isFull with
  | true =>
    rw [push_of_full full]
    exact h
  | false =>
    have room := placed_lt_of_not_full full
    rw [push_of_not_full full]
    refine ⟨by show store.placed + 1 ≤ 256; omega, fun index => ?_⟩
    have before := h.written index
    show (store.slots.setIfInBounds store.placed (some value))[index]?.join.isSome = true ↔
      index < store.placed + 1
    by_cases here : index = store.placed
    · subst here
      simp [room]
    · rw [Vector.getElem?_setIfInBounds_ne (Ne.symm here), before]
      omega

theorem Dense.foldl_push {store : DataStore} (h : store.Dense) (values : List Word) :
    (values.foldl DataStore.push store).Dense := by
  induction values generalizing store with
  | nil => exact h
  | cons value rest ih => exact ih (h.push value)

end TinyMips.DataStore
