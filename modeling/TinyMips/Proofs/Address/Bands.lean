import TinyMips.Proofs.Address.Region
import Mathlib.Order.Interval.Set.Nat

/-!
# Bands of the address space

* **slots** — storage indices and supported addresses correspond one to one
  (`Region.bijOn_addressOf`), so there are as many supported addresses as elements
  (`Region.ncard_supported`);
* **bands** — `Region.Judges` says which answer an address gets where it lies, and a check gives
  exactly this answer (`Region.check_eq_iff`).

With the values of the datapath and the scaling of words these are the laws of address arithmetic
(`Region.addresses_exact`).
-/

namespace TinyMips

namespace Region

/-! ## Slots -/

/-- The addresses that are sorted into the supported ones. -/
def supported (region : Region) : Set Address :=
  {address | region.classify address = .supported}

theorem mem_supported_iff {region : Region} {address : Address} :
    address ∈ region.supported ↔ region.Supports address.toNat :=
  classify_eq_supported_iff region address

/-- Storage indices and supported addresses correspond one to one. -/
theorem bijOn_addressOf (region : Region) :
    Set.BijOn region.addressOf (Set.Iio region.slotCount) region.supported := by
  have back : ∀ index < region.slotCount, region.indexOf (region.addressOf index) = index :=
    fun index inside => indexOf_addressOf region (Nat.lt_trans inside region.slotCount_lt)
  refine ⟨?mapsTo, ?injOn, ?surjOn⟩
  case mapsTo =>
    intro index inside
    exact mem_supported_iff.mpr (supports_slot region inside)
  case injOn =>
    intro index inside other inside' same
    rw [← back index inside, ← back other inside', same]
  case surjOn =>
    intro address mem
    have supports := mem_supported_iff.mp mem
    exact ⟨region.indexOf address, indexOf_lt_slotCount supports, addressOf_indexOf supports⟩

/-- An address is supported if it is the address of an element. -/
theorem supports_iff_exists_slot {region : Region} {address : Address} :
    region.Supports address.toNat ↔
      ∃ index < region.slotCount, address = region.addressOf index := by
  rw [← mem_supported_iff, ← region.bijOn_addressOf.image_eq]
  simp only [Set.mem_image, Set.mem_Iio, eq_comm]

theorem ncard_supported (region : Region) : region.supported.ncard = region.slotCount := by
  rw [← region.bijOn_addressOf.ncard_eq, Set.ncard_Iio_nat]

/-! ## Bands -/

/-- Which answer belongs to an address: its storage index where it is the address of an element, and
elsewhere a refusal that depends on its band alone. -/
inductive Judges (region : Region) (address : Address) : Except AddressError Nat → Prop where
  | slot {index : Nat} (inside : index < region.slotCount)
    (here : address = region.addressOf index) : Judges region address (.ok index)
  | misaligned (low : region.base ≤ address.toNat) (high : address.toNat < region.supportedEnd)
    (between : ∀ index < region.slotCount, address ≠ region.addressOf index) :
    Judges region address (.error (.misaligned region address))
  | unsupported (low : region.supportedEnd ≤ address.toNat)
    (high : address.toNat < region.validEnd) :
    Judges region address (.error (.unsupported region address))
  | outOfRange (outside : address.toNat < region.base ∨ region.validEnd ≤ address.toNat) :
    Judges region address (.error (.outOfRange region address.toInt64))

theorem judges_check (region : Region) (address : Address) :
    region.Judges address (region.check address) := by
  by_cases supports : region.Supports address.toNat
  · rw [check_of_supports supports]
    exact .slot (indexOf_lt_slotCount supports) (addressOf_indexOf supports).symm
  · by_cases outside : address.toNat < region.base ∨ region.validEnd ≤ address.toNat
    · rw [check_of_outside outside]
      exact .outOfRange outside
    · by_cases backed : address.toNat < region.supportedEnd
      · rw [check_of_between (by omega) backed supports]
        refine .misaligned (by omega) backed fun index inside here => ?_
        exact supports (supports_iff_exists_slot.mpr ⟨index, inside, here⟩)
      · rw [check_of_unbacked (by omega) (by omega)]
        exact .unsupported (by omega) (by omega)

/-- A check gives the answer that belongs to the address. -/
theorem check_eq_iff (region : Region) (address : Address) (answer : Except AddressError Nat) :
    region.check address = answer ↔ region.Judges address answer := by
  constructor
  · rintro rfl
    exact judges_check region address
  · intro judges
    cases judges with
    | slot inside here => exact (check_eq_ok_iff_slot region _ _).mpr ⟨inside, here⟩
    | misaligned low high between =>
      refine check_of_between low high fun supports => ?_
      obtain ⟨index, inside, here⟩ := supports_iff_exists_slot.mp supports
      exact between index inside here
    | unsupported low high => exact check_of_unbacked low high
    | outOfRange outside => exact check_of_outside outside

/-! ## Address arithmetic -/

/-- Address arithmetic, exactly. A check answers a storage index for the address of that element and
else a refusal by the band of the address; storage indices and supported addresses correspond one to
one, and 256 addresses of data are supported. A value of the datapath is judged like the address of
the same number, or is out of range as it stands if it is negative. Word immediates and byte addresses
are shifted by two bits into each other; an immediate comes back if it lies between `-2 ^ 61` and
`2 ^ 61 - 1`, and a byte address if four divides it. -/
theorem addresses_exact :
    (∀ (region : Region) (address : Address) (answer : Except AddressError Nat),
      region.check address = answer ↔ region.Judges address answer) ∧
    (∀ region : Region,
      Set.BijOn region.addressOf (Set.Iio region.slotCount) region.supported) ∧
    data.supported.ncard = 256 ∧
    (∀ (region : Region) (value : Word),
      (0 ≤ value.toInt → ∃ address : Address, (address.toNat : Int) = value.toInt ∧
        region.checkValue value = region.check address) ∧
      (value.toInt < 0 → region.checkValue value = .error (.outOfRange region value))) ∧
    ∀ word : Word,
      (word.toBytes = word <<< 2 ∧ word.ofBytes = word >>> 2) ∧
      (word.toBytes.ofBytes = word ↔ -2 ^ 61 ≤ word.toInt ∧ word.toInt < 2 ^ 61) ∧
      (word.ofBytes.toBytes = word ↔ 4 ∣ word.toInt) := by
  refine ⟨check_eq_iff, bijOn_addressOf, ncard_supported data, fun region value => ⟨?_, ?_⟩,
    fun word => ⟨⟨?_, ?_⟩, ?_, ?_⟩⟩
  · intro nonneg
    exact ⟨value.toUInt64, Word.toNat_toUInt64 nonneg, checkValue_of_nonneg region nonneg⟩
  · exact checkValue_of_negative region
  · exact Word.toBytes_eq_shiftLeft word
  · exact Word.ofBytes_eq_shiftRight word
  · exact Word.ofBytes_toBytes_iff word
  · exact Word.toBytes_ofBytes_iff word

/-- The last data address that is supported, the value after it, a negative one and the first
immediate that loses a bit. -/
theorem addresses_exact_of_last_slot :
    data.check 0x100107F8 = .ok 255 ∧
      (0 ≤ (0x10010800 : Word).toInt ∧ ∃ address : Address,
        (address.toNat : Int) = (0x10010800 : Word).toInt ∧
        data.checkValue 0x10010800 = data.check address) ∧
      ((-8 : Word).toInt < 0 ∧ data.checkValue (-8) = .error (.outOfRange .data (-8))) ∧
      (0x2000000000000000 : Word).toBytes.ofBytes ≠ 0x2000000000000000 := by
  obtain ⟨checks, -, -, values, words⟩ := addresses_exact
  refine ⟨?_, ⟨by decide, ?_⟩, ⟨by decide, ?_⟩, ?_⟩
  · exact (checks _ _ _).mpr (.slot (by decide) (by decide))
  · exact (values _ _).1 (by decide)
  · exact (values _ _).2 (by decide)
  · intro back
    have range := (words _).2.1.mp back
    exact absurd range.2 (by decide)

end Region

end TinyMips
