import TinyMips.Proofs.Store.Data

/-!
# Histories of the data store

What a data store holds after any sequence of appending, storing, loading and reading, said by what
the operations answered alone:

* **events** — an operation with its answer tells which slot it wrote, if any
  (`DataStore.Event.write?`), and the last event that wrote a slot decides its value
  (`DataStore.lastWrite?`);
* **invariant** — `DataStore.Tracks` ties a store to its events; one operation keeps it
  (`DataStore.Tracks.perform`), so it holds after every history (`DataStore.tracks_transcript`);
* **answers** — `DataStore.Remembers` has what the store answers next, and
  `DataStore.remembers_history` that this holds after every history.
-/

namespace TinyMips.DataStore

/-! ## Operations and events -/

/-- What may be done with a data store. -/
inductive Operation where
  | push (value : Word)
  | store (address value : Word)
  | load (address : Word)
  | get (index : Nat)

/-- What an operation answers. -/
inductive Answer where
  /-- Where the value was appended, or nothing in a full store. -/
  | placed (address : Option Address)
  | stored (result : Except AddressError Unit)
  | loaded (result : Except AddressError Word)
  | got (value : Word)

/-- An operation and what it answered. -/
abbrev Event := Operation × Answer

/-- The answer of a store to an operation. -/
def answer (contents : DataStore) : Operation → Answer
  | .push _ => .placed contents.free?
  | .store address value => .stored ((contents.store address value).map fun _ => ())
  | .load address => .loaded (contents.load address)
  | .get index => .got (contents.get index)

/-- The store after an operation. -/
def perform (contents : DataStore) : Operation → DataStore
  | .push value => contents.push value
  | .store address value =>
    match contents.store address value with
    | .ok next => next
    | .error _ => contents
  | .load _ => contents
  | .get _ => contents

/-- The events of a sequence of operations. -/
def transcript (contents : DataStore) : List Operation → List Event
  | [] => []
  | operation :: rest =>
    (operation, contents.answer operation) :: transcript (contents.perform operation) rest

/-- Whether an operation failed. -/
def Answer.Failed : Answer → Prop
  | placed address => address = none
  | stored result => ∃ error, result = .error error
  | loaded result => ∃ error, result = .error error
  | got _ => False

/-- The address of a slot as an integer. -/
def slotAddress (slot : Nat) : Int := 0x10010000 + 8 * slot

/-- The value that an event wrote to a slot: the event is a successful operation on the address of
the slot. -/
def Event.write? (slot : Nat) : Event → Option Word
  | (.push value, .placed (some address)) =>
    if address.toNat = slotAddress slot then some value else none
  | (.store address value, .stored (.ok ())) =>
    if address.toInt = slotAddress slot then some value else none
  | _ => none

/-- The value most recently written to a slot. -/
def lastWrite? (events : List Event) (slot : Nat) : Option Word :=
  events.reverse.findSome? (Event.write? slot)

/-- Where an event appended its value. -/
def Event.placed? : Event → Option Address
  | (.push _, .placed address) => address
  | _ => none

/-- Where the successful appendings put their values, in order. -/
def placements (events : List Event) : List Address :=
  events.filterMap Event.placed?

/-! ## Slots and addresses -/

theorem toNat_addressOf_data {slot : Nat} (h : slot < 256) :
    ((Region.data.addressOf slot).toNat : Int) = slotAddress slot := by
  rw [Region.toNat_addressOf .data (by omega)]
  show ((0x10010000 + slot * 8 : Nat) : Int) = 0x10010000 + 8 * slot
  omega

/-- A check of a datapath value answers the slot whose address the value is. -/
theorem checkValue_data_eq_ok_iff {address : Word} {slot : Nat} :
    Region.data.checkValue address = .ok slot ↔ slot < 256 ∧ address.toInt = slotAddress slot := by
  by_cases negative : address.toInt < 0
  · rw [Region.checkValue_of_negative .data negative]
    unfold slotAddress
    simp only [reduceCtorEq, false_iff]
    omega
  · have nonneg : 0 ≤ address.toInt := Int.not_lt.mp negative
    rw [Region.checkValue_of_nonneg .data nonneg, Region.check_eq_ok_iff_slot]
    refine and_congr_right fun inside => ?_
    rw [← toNat_addressOf_data inside, ← Word.toNat_toUInt64 nonneg, Int.ofNat_inj,
      UInt64.toNat_inj]

theorem slotAddress_inj {slot other : Nat} :
    slotAddress slot = slotAddress other ↔ slot = other := by
  unfold slotAddress
  omega

/-! ## One operation -/

section Operation

variable (contents : DataStore)

theorem answer_push (value : Word) :
    contents.answer (.push value) =
      .placed (if contents.placed < 256 then some (Region.data.addressOf contents.placed)
        else none) := by
  rw [answer, free?_eq]

/-- A store succeeds on the address of a slot and puts the value there, or it fails. -/
theorem store_cases (address value : Word) :
    (∃ slot < 256, address.toInt = slotAddress slot ∧
      contents.store address value = .ok (contents.put slot value)) ∨
    ((∀ slot < 256, address.toInt ≠ slotAddress slot) ∧
      ∃ error, contents.store address value = .error error) := by
  unfold store
  cases checked : Region.data.checkValue address with
  | ok slot =>
    obtain ⟨lt, here⟩ := checkValue_data_eq_ok_iff.mp checked
    exact .inl ⟨slot, lt, here, rfl⟩
  | error error =>
    refine .inr ⟨fun slot lt here => ?_, error, rfl⟩
    rw [checkValue_data_eq_ok_iff.mpr ⟨lt, here⟩] at checked
    contradiction

theorem load_eq_ok_iff (address value : Word) :
    contents.load address = .ok value ↔
      ∃ slot < 256, address.toInt = slotAddress slot ∧ value = contents.get slot := by
  unfold load
  constructor
  · intro loaded
    cases checked : Region.data.checkValue address with
    | ok slot =>
      obtain ⟨lt, here⟩ := checkValue_data_eq_ok_iff.mp checked
      rw [checked] at loaded
      exact ⟨slot, lt, here, (Except.ok.inj loaded).symm⟩
    | error error =>
      rw [checked] at loaded
      contradiction
  · rintro ⟨slot, lt, here, rfl⟩
    rw [checkValue_data_eq_ok_iff.mpr ⟨lt, here⟩]
    rfl

/-- An operation that fails leaves the store as it was. -/
theorem perform_of_failed (operation : Operation) (failed : (contents.answer operation).Failed) :
    contents.perform operation = contents := by
  cases operation with
  | push value =>
    rw [answer_push] at failed
    have full : ¬contents.placed < 256 := by
      intro room
      rw [if_pos room] at failed
      contradiction
    exact push_of_full (decide_eq_true (Nat.not_lt.mp full)) value
  | store address value =>
    obtain ⟨slot, -, -, stored⟩ | ⟨-, error, refused⟩ := contents.store_cases address value
    · obtain ⟨error, refused⟩ := failed
      rw [stored] at refused
      contradiction
    · rw [perform, refused]
  | load address => rfl
  | get index => rfl

theorem slot_put {slot : Nat} (value : Word) (lt : slot < 256) (other : Nat) :
    (contents.put slot value).slots[other]?.join =
      if slot = other then some value else contents.slots[other]?.join := by
  unfold put
  dsimp only
  split
  · next same =>
    subst same
    simp [lt]
  · next ne => rw [Vector.getElem?_setIfInBounds_ne ne]

/-- What is appended is read back from the next slot. -/
theorem get_push (value : Word) (room : contents.placed < 256) (slot : Nat) :
    (contents.push value).get slot =
      if slot = contents.placed then value else contents.get slot := by
  have fresh : contents.isFull = false := decide_eq_false (Nat.not_le.mpr room)
  rw [push_of_not_full fresh]
  exact get_put contents value room slot

end Operation

/-! ## What a history leaves -/

/-- Whether a store is what a list of events left. -/
structure Tracks (events : List Event) (contents : DataStore) : Prop where
  /-- Values were appended to the first slots in order. -/
  placed : placements events = (List.range contents.placed).map Region.data.addressOf
  /-- No more values were appended than there are slots. -/
  room : contents.placed ≤ 256
  /-- Each slot holds what was last written to it. -/
  slot (slot : Nat) : contents.slots[slot]?.join = lastWrite? events slot

theorem lastWrite?_concat (events : List Event) (event : Event) (slot : Nat) :
    lastWrite? (events ++ [event]) slot = (event.write? slot).or (lastWrite? events slot) := by
  unfold lastWrite?
  rw [List.reverse_append, List.reverse_singleton, List.singleton_append, List.findSome?_cons]
  cases event.write? slot <;> rfl

theorem placements_concat (events : List Event) (event : Event) :
    placements (events ++ [event]) = placements events ++ event.placed?.toList := by
  unfold placements
  rw [List.filterMap_append]
  cases placed : event.placed? <;> simp [placed]

theorem tracks_empty : Tracks [] {} where
  placed := rfl
  room := by decide
  slot slot := by
    show (Vector.replicate 256 (none : Option Word))[slot]?.join = none
    rw [Vector.getElem?_replicate]
    split <;> rfl

section Tracks

variable {events : List Event} {contents : DataStore} (h : Tracks events contents)
include h

/-- An event that wrote nothing leaves nothing else to track. -/
theorem Tracks.silent {event : Event} (placed : event.placed? = none)
    (write : ∀ slot, event.write? slot = none) : Tracks (events ++ [event]) contents where
  placed := by rw [placements_concat, placed, Option.toList_none, List.append_nil, h.placed]
  room := h.room
  slot slot := by rw [lastWrite?_concat, write, Option.none_or, h.slot]

theorem Tracks.push (value : Word) :
    Tracks (events ++ [(.push value, contents.answer (.push value))]) (contents.push value) := by
  rw [answer_push]
  by_cases room : contents.placed < 256
  · rw [if_pos room, push_of_not_full (decide_eq_false (Nat.not_le.mpr room))]
    refine ⟨?_, ?_, fun slot => ?_⟩
    · rw [placements_concat, h.placed]
      show _ = (List.range (contents.placed + 1)).map Region.data.addressOf
      rw [List.range_succ, List.map_append]
      rfl
    · exact room
    · show (contents.put contents.placed value).slots[slot]?.join = _
      rw [slot_put contents value room, lastWrite?_concat, h.slot]
      unfold Event.write?
      dsimp only
      rw [toNat_addressOf_data room]
      by_cases here : contents.placed = slot
      · rw [if_pos here, if_pos (slotAddress_inj.mpr here)]
        rfl
      · rw [if_neg here, if_neg (mt slotAddress_inj.mp here)]
        rfl
  · rw [if_neg room, push_of_full (decide_eq_true (Nat.not_lt.mp room))]
    exact h.silent rfl fun _ => rfl

theorem Tracks.store (address value : Word) :
    Tracks (events ++ [(.store address value, contents.answer (.store address value))])
      (contents.perform (.store address value)) := by
  obtain ⟨slot, lt, here, stored⟩ | ⟨-, error, refused⟩ := contents.store_cases address value
  · rw [answer, perform, stored]
    refine ⟨?_, h.room, fun other => ?_⟩
    · rw [placements_concat, h.placed]
      exact List.append_nil _
    · dsimp only
      rw [slot_put contents value lt, lastWrite?_concat, h.slot]
      show _ = Option.or (if address.toInt = slotAddress other then some value else none) _
      rw [here]
      by_cases same : slot = other
      · rw [if_pos same, if_pos (slotAddress_inj.mpr same)]
        rfl
      · rw [if_neg same, if_neg (mt slotAddress_inj.mp same)]
        rfl
  · rw [answer, perform, refused]
    exact h.silent rfl fun _ => rfl

/-- One operation keeps a store what its events left. -/
theorem Tracks.perform (operation : Operation) :
    Tracks (events ++ [(operation, contents.answer operation)]) (contents.perform operation) := by
  cases operation with
  | push value => exact h.push value
  | store address value => exact h.store address value
  | load address => exact h.silent rfl fun _ => rfl
  | get index => exact h.silent rfl fun _ => rfl

theorem Tracks.transcript (history : List Operation) :
    Tracks (events ++ contents.transcript history) (history.foldl DataStore.perform contents) := by
  induction history generalizing events contents with
  | nil =>
    rw [DataStore.transcript, List.append_nil]
    exact h
  | cons operation rest ih =>
    have later := ih (h.perform operation)
    rwa [List.append_assoc, List.singleton_append] at later

end Tracks

theorem tracks_transcript (history : List Operation) :
    Tracks (transcript {} history) (history.foldl perform {}) :=
  tracks_empty.transcript history

/-! ## What a history makes the store answer -/

/-- Whether a store answers what a list of events tells. -/
structure Remembers (events : List Event) (contents : DataStore) : Prop where
  /-- A load succeeds exactly at the addresses of the slots. -/
  load_succeeds (address : Word) : (∃ value, contents.load address = .ok value) ↔
    ∃ slot < 256, address.toInt = slotAddress slot
  /-- A load answers what was most recently written to the slot, or zero. -/
  load {address : Word} {slot : Nat} (lt : slot < 256) (here : address.toInt = slotAddress slot) :
    contents.load address = .ok ((lastWrite? events slot).getD 0)
  /-- So does reading a slot, whichever it is. -/
  get (slot : Nat) : contents.get slot = (lastWrite? events slot).getD 0
  /-- A store succeeds exactly at the addresses of the slots, too. -/
  store_succeeds (address value : Word) : (∃ next, contents.store address value = .ok next) ↔
    ∃ slot < 256, address.toInt = slotAddress slot
  /-- The successful appendings went to the slots in order, whatever was stored before. -/
  placed {k : Nat} {address : Address} (here : (placements events)[k]? = some address) :
    address.toNat = slotAddress k
  /-- The next one goes to the next slot and leaves the other slots alone. -/
  push (value : Word) (room : (placements events).length < 256) :
    (∃ address, contents.answer (.push value) = .placed (some address) ∧
      address.toNat = slotAddress (placements events).length) ∧
    ∀ slot, (contents.push value).get slot =
      if slot = (placements events).length then value else contents.get slot
  /-- Appending fails exactly after 256 successful appendings. -/
  full (value : Word) :
    contents.answer (.push value) = .placed none ↔ (placements events).length = 256
  /-- An operation that fails changes nothing. -/
  failed {operation : Operation} (refused : (contents.answer operation).Failed) :
    contents.perform operation = contents
  /-- The listing has the slots that were written, with their last values. -/
  listed (address : Address) (value : Word) : (address, value) ∈ contents.written ↔
    ∃ slot < 256, address.toNat = slotAddress slot ∧ lastWrite? events slot = some value
  /-- The listing is in the order of the addresses, each of them once. -/
  ordered : contents.written.Pairwise fun a b => a.1 < b.1
  /-- No slot from 256 on is ever written. -/
  bounded {slot : Nat} {value : Word} (write : lastWrite? events slot = some value) : slot < 256

theorem slot_of_ge (contents : DataStore) {slot : Nat} (h : 256 ≤ slot) :
    contents.slots[slot]?.join = none := by
  rw [Vector.getElem?_eq_none h]
  rfl

/-- The listing is in the order of the slots. -/
theorem pairwise_written (contents : DataStore) :
    contents.written.Pairwise fun a b => a.1 < b.1 := by
  have ordered : (List.range 256).Pairwise fun i j => i < j ∧ j < 256 :=
    List.pairwise_lt_range.imp_of_mem fun _ mem lt => ⟨lt, List.mem_range.mp mem⟩
  refine ordered.filterMap _ ?_
  rintro i j ⟨lt, small⟩ first here second there
  obtain ⟨_, -, rfl⟩ := Option.map_eq_some_iff.mp here
  obtain ⟨_, -, rfl⟩ := Option.map_eq_some_iff.mp there
  have low := toNat_addressOf_data (Nat.lt_trans lt small)
  have high := toNat_addressOf_data small
  unfold slotAddress at low high
  show Region.data.addressOf i < Region.data.addressOf j
  rw [UInt64.lt_iff_toNat_lt]
  omega

theorem mem_written_iff (contents : DataStore) (address : Address) (value : Word) :
    (address, value) ∈ contents.written ↔
      ∃ slot < 256, address.toNat = slotAddress slot ∧
        contents.slots[slot]?.join = some value := by
  constructor
  · intro mem
    obtain ⟨slot, lt, here⟩ := List.mem_filterMap.mp mem
    obtain ⟨written, filled, same⟩ := Option.map_eq_some_iff.mp here
    obtain ⟨rfl, rfl⟩ := Prod.mk.inj same
    have lt := List.mem_range.mp lt
    exact ⟨slot, lt, toNat_addressOf_data lt, filled⟩
  · rintro ⟨slot, lt, here, filled⟩
    have same : Region.data.addressOf slot = address := by
      have there := toNat_addressOf_data lt
      apply UInt64.toNat_inj.mp
      omega
    refine List.mem_filterMap.mpr ⟨slot, List.mem_range.mpr lt, ?_⟩
    rw [filled, same]
    rfl

section Remembers

variable {events : List Event} {contents : DataStore} (h : Tracks events contents)
include h

theorem Tracks.length : (placements events).length = contents.placed := by
  rw [h.placed, List.length_map, List.length_range]

theorem Tracks.get (slot : Nat) : contents.get slot = (lastWrite? events slot).getD 0 := by
  rw [← h.slot slot]
  rfl

theorem Tracks.address {k : Nat} {address : Address}
    (here : (placements events)[k]? = some address) : address.toNat = slotAddress k := by
  have room := h.room
  rw [h.placed, List.getElem?_map, Option.map_eq_some_iff] at here
  obtain ⟨slot, at', rfl⟩ := here
  obtain ⟨lt, rfl⟩ := List.getElem?_eq_some_iff.mp at'
  rw [List.length_range] at lt
  rw [List.getElem_range]
  exact toNat_addressOf_data (by omega)

theorem Tracks.remembers : Remembers events contents where
  load_succeeds address := by
    simp only [load_eq_ok_iff]
    constructor
    · rintro ⟨_, slot, lt, here, -⟩
      exact ⟨slot, lt, here⟩
    · rintro ⟨slot, lt, here⟩
      exact ⟨_, slot, lt, here, rfl⟩
  load {address slot} lt here := by
    rw [← h.get slot]
    exact (load_eq_ok_iff contents address _).mpr ⟨slot, lt, here, rfl⟩
  get slot := h.get slot
  store_succeeds address value := by
    obtain ⟨slot, lt, here, stored⟩ | ⟨none, error, refused⟩ := contents.store_cases address value
    · exact ⟨fun _ => ⟨slot, lt, here⟩, fun _ => ⟨_, stored⟩⟩
    · constructor
      · rintro ⟨next, stored⟩
        rw [refused] at stored
        contradiction
      · rintro ⟨slot, lt, here⟩
        exact absurd here (none slot lt)
  placed here := h.address here
  push value room := by
    rw [h.length] at room ⊢
    rw [answer_push, if_pos room]
    exact ⟨⟨_, rfl, toNat_addressOf_data room⟩, contents.get_push value room⟩
  full value := by
    have bound := h.room
    rw [h.length, answer_push]
    split
    · next room =>
      simp only [reduceCtorEq, Answer.placed.injEq, false_iff]
      omega
    · next full => exact ⟨fun _ => by omega, fun _ => rfl⟩
  failed {operation} refused := contents.perform_of_failed operation refused
  listed address value := by
    simp only [← h.slot]
    exact contents.mem_written_iff address value
  ordered := contents.pairwise_written
  bounded {slot value} write := by
    by_contra beyond
    rw [← h.slot, contents.slot_of_ge (Nat.not_lt.mp beyond)] at write
    contradiction

end Remembers

/-- A data store after any sequence of operations answers what the operations and their answers
tell. A load succeeds exactly at the supported addresses, with the value most recently written to
the slot by a successful store or appending; the k-th successful appending wrote slot `k - 1`, and
appending fails exactly after 256 of them; what fails changes nothing; and the listing has exactly
the written slots, by address, none of them past the last slot. -/
theorem remembers_history (history : List Operation) :
    Remembers (transcript {} history) (history.foldl perform {}) :=
  (tracks_transcript history).remembers

-- a value that is stored ahead of the appended ones is overwritten, one that is refused is nowhere
example :
    let history : List Operation :=
      [.store 0x10010008 7, .push 1, .store 0x10010004 9, .push 2, .store 0x10010010 3]
    [0, 1, 2].map (history.foldl perform {}).get = [1, 2, 3] := by
  decide +kernel

end TinyMips.DataStore
