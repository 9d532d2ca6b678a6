import TinyMips.Address.Region
import TinyMips.Proofs.Address.Word

/-!
# Supported addresses

An address is supported when it lies in backed storage at a whole number of elements from the
base of its region:

* **checking** — `Region.check` accepts exactly the supported addresses (`Region.check_eq_ok_iff`)
  and refuses the others by the band that they lie in (`Region.check_of_between`,
  `Region.check_of_unbacked`, `Region.check_of_outside`);
* **values** — those of the datapath are judged by the integers that they stand for
  (`Region.checkValue_eq_ok_iff`);
* **indices** — storage indices and supported addresses determine each other
  (`Region.addressOf_indexOf`, `Region.indexOf_addressOf`, `Region.check_eq_ok_iff_slot`).
-/

namespace TinyMips

namespace Region

/-- Whether an integer is a supported address of a region. -/
def Supports (region : Region) (value : Int) : Prop :=
  region.base ≤ value ∧ value < region.supportedEnd ∧
    (value - region.base) % region.elementSize = 0

instance (region : Region) (value : Int) : Decidable (region.Supports value) := by
  unfold Supports
  infer_instance

/-- The supported instruction addresses are the aligned ones of the first band. -/
theorem supports_text_iff (value : Int) :
    text.Supports value ↔ 0x00400000 ≤ value ∧ value < 0x00500000 ∧ value % 4 = 0 := by
  show (((0x00400000 : Nat) : Int) ≤ value ∧ value < ((0x00500000 : Nat) : Int) ∧
    (value - ((0x00400000 : Nat) : Int)) % ((4 : Nat) : Int) = 0) ↔ _
  omega

/-- The storage index of a supported address. -/
def indexOf (region : Region) (address : Address) : Nat :=
  (address.toNat - region.base) / region.elementSize

/-! ## Checking -/

/-- An address is sorted into the supported ones when it is one. -/
theorem classify_eq_supported_iff (region : Region) (address : Address) :
    region.classify address = .supported ↔ region.Supports address.toNat := by
  -- alignment is counted in naturals on one side and in integers on the other
  have aligned (low : region.base ≤ address.toNat) :
      ((address.toNat : Int) - region.base) % region.elementSize =
        ((address.toNat - region.base) % region.elementSize : Nat) := by
    rw [← Int.ofNat_sub low]
    rfl
  unfold classify Supports
  dsimp only
  split
  · next unbacked =>
    simp only [reduceCtorEq, false_iff]
    omega
  · split
    · next backed =>
      rw [aligned backed.1]
      split
      · next divides =>
        rw [divides]
        exact ⟨fun _ => ⟨by omega, by omega, rfl⟩, fun _ => rfl⟩
      · next remains =>
        refine ⟨nofun, fun ⟨_, _, divides⟩ => ?_⟩
        exact absurd (Int.ofNat_eq_zero.mp divides) remains
    · simp only [reduceCtorEq, false_iff]
      omega

/-- A check succeeds on the supported addresses and answers their storage index. -/
theorem check_eq_ok_iff (region : Region) (address : Address) (index : Nat) :
    region.check address = .ok index ↔
      region.Supports address.toNat ∧ region.indexOf address = index := by
  rw [← classify_eq_supported_iff]
  unfold check indexOf
  cases region.classify address <;> simp

theorem check_of_supports {region : Region} {address : Address}
    (h : region.Supports address.toNat) :
    region.check address = .ok (region.indexOf address) :=
  (check_eq_ok_iff region address _).mpr ⟨h, rfl⟩

/-- The bands of a region follow each other. -/
theorem bands_ordered (region : Region) :
    region.base ≤ region.supportedEnd ∧ region.supportedEnd ≤ region.validEnd := by
  cases region <;> decide

section Refused

variable {region : Region} {address : Address}

/-- An address between two elements of backed storage is misaligned. -/
theorem check_of_between (low : region.base ≤ address.toNat)
    (high : address.toNat < region.supportedEnd) (between : ¬region.Supports address.toNat) :
    region.check address = .error (.misaligned region address) := by
  rw [← classify_eq_supported_iff] at between
  have sorted : region.classify address = .misaligned := by
    unfold classify at between ⊢
    dsimp only at between ⊢
    rw [if_neg (by omega), if_pos ⟨low, high⟩] at between ⊢
    rw [if_neg fun aligned => between (if_pos aligned)]
  unfold check
  rw [sorted]

/-- An address past backed storage is refused as such, whether it is aligned or not. -/
theorem check_of_unbacked (low : region.supportedEnd ≤ address.toNat)
    (high : address.toNat < region.validEnd) :
    region.check address = .error (.unsupported region address) := by
  have sorted : region.classify address = .unsupported := if_pos ⟨low, high⟩
  unfold check
  rw [sorted]

/-- An address below or beyond a region is out of range. -/
theorem check_of_outside (h : address.toNat < region.base ∨ region.validEnd ≤ address.toNat) :
    region.check address = .error (.outOfRange region address.toInt64) := by
  have bands := region.bands_ordered
  have sorted : region.classify address = .outOfRange := by
    unfold classify
    dsimp only
    rw [if_neg (by omega), if_neg (by omega)]
  unfold check
  rw [sorted]

theorem check_of_lt_base (h : address.toNat < region.base) :
    region.check address = .error (.outOfRange region address.toInt64) :=
  check_of_outside (.inl h)

end Refused

/-! ## Values of the datapath -/

theorem checkValue_of_negative (region : Region) {value : Word} (negative : value.toInt < 0) :
    region.checkValue value = .error (.outOfRange region value) :=
  if_pos (Int64.lt_iff_toInt_lt.mpr negative)

theorem checkValue_of_nonneg (region : Region) {value : Word} (nonneg : 0 ≤ value.toInt) :
    region.checkValue value = region.check value.toUInt64 := by
  apply if_neg
  rw [Int64.lt_iff_toInt_lt]
  exact Int.not_lt.mpr nonneg

/-- A datapath value passes the check when its integer is a supported address. -/
theorem checkValue_eq_ok_iff (region : Region) (value : Word) (index : Nat) :
    region.checkValue value = .ok index ↔
      region.Supports value.toInt ∧ region.indexOf value.toUInt64 = index := by
  by_cases negative : value.toInt < 0
  · rw [checkValue_of_negative region negative]
    simp only [reduceCtorEq, false_iff, not_and]
    intro ⟨low, _⟩
    omega
  · have nonneg : 0 ≤ value.toInt := by omega
    rw [checkValue_of_nonneg region nonneg, check_eq_ok_iff, Word.toNat_toUInt64 nonneg]

/-- A datapath value is refused when its integer is no supported address. -/
theorem checkValue_eq_error_iff (region : Region) (value : Word) :
    (∃ error, region.checkValue value = .error error) ↔ ¬region.Supports value.toInt := by
  have accepted := checkValue_eq_ok_iff region value
  cases h : region.checkValue value with
  | ok index =>
    have := ((accepted index).mp h).1
    simp [this]
  | error error =>
    refine ⟨fun _ supported => ?_, fun _ => ⟨error, rfl⟩⟩
    have := (accepted _).mpr ⟨supported, rfl⟩
    rw [h] at this
    contradiction

/-! ## Indices -/

theorem toNat_addressOf (region : Region) {index : Nat} (h : index < 2 ^ 32) :
    (region.addressOf index).toNat = region.base + index * region.elementSize := by
  unfold addressOf
  apply UInt64.toNat_ofNat_of_lt'
  cases region <;> simp only [base, elementSize, UInt64.size] <;> omega

theorem toNat_addressOf_text {index : Nat} (h : index < 2 ^ 32) :
    (text.addressOf index).toNat = 0x00400000 + 4 * index := by
  rw [toNat_addressOf text h]
  simp only [base, elementSize]
  omega

/-- The instruction after an instruction has the next index. -/
theorem addressOf_add_four {index : Nat} (h : index < 256) :
    text.addressOf index + 4 = text.addressOf (index + 1) := by
  apply UInt64.toNat_inj.mp
  rw [UInt64.toNat_add, toNat_addressOf_text (by omega), toNat_addressOf_text (by omega)]
  show (_ + 4) % 2 ^ 64 = _
  omega

/-- How many elements the backed storage of a region has. -/
def slotCount (region : Region) : Nat :=
  (region.supportedEnd - region.base) / region.elementSize

/-- Backed storage is a whole number of elements long. -/
theorem base_add_slotCount (region : Region) :
    region.base + region.elementSize * region.slotCount = region.supportedEnd := by
  cases region <;> rfl

theorem slotCount_lt (region : Region) : region.slotCount < 2 ^ 32 := by
  cases region <;> decide

theorem capacity_le_slotCount (region : Region) : 256 ≤ region.slotCount := by
  cases region <;> decide

/-- Every element of backed storage has a supported address. -/
theorem supports_slot (region : Region) {index : Nat} (h : index < region.slotCount) :
    region.Supports (region.addressOf index).toNat := by
  rw [toNat_addressOf region (Nat.lt_trans h region.slotCount_lt)]
  cases region <;> simp only [Supports, base, supportedEnd, elementSize, slotCount] at * <;> omega

theorem supports_addressOf (region : Region) {index : Nat} (h : index < 256) :
    region.Supports (region.addressOf index).toNat :=
  supports_slot region (Nat.lt_of_lt_of_le h region.capacity_le_slotCount)

theorem indexOf_addressOf (region : Region) {index : Nat} (h : index < 2 ^ 32) :
    region.indexOf (region.addressOf index) = index := by
  unfold indexOf
  rw [toNat_addressOf region h]
  cases region <;> simp only [base, elementSize] <;> omega

/-- The addresses of one region are out of range of the other. -/
theorem check_addressOf_of_ne {region other : Region} (ne : other ≠ region) {index : Nat}
    (h : index < 256) :
    region.check (other.addressOf index) =
      .error (.outOfRange region (other.addressOf index).toInt64) := by
  apply check_of_outside
  rw [toNat_addressOf other (by omega)]
  cases region with
  | text =>
    cases other with
    | text => exact absurd rfl ne
    | data => exact .inr (by simp only [base, elementSize, validEnd]; omega)
  | data =>
    cases other with
    | text => exact .inl (by simp only [base, elementSize]; omega)
    | data => exact absurd rfl ne

theorem indexOf_lt_slotCount {region : Region} {address : Address}
    (h : region.Supports address.toNat) : region.indexOf address < region.slotCount := by
  obtain ⟨low, high, -⟩ := h
  have whole := region.base_add_slotCount
  unfold indexOf
  apply Nat.div_lt_of_lt_mul
  omega

/-- A supported address is the address of its storage index. -/
theorem addressOf_indexOf {region : Region} {address : Address}
    (h : region.Supports address.toNat) : region.addressOf (region.indexOf address) = address := by
  apply UInt64.toNat_inj.mp
  rw [toNat_addressOf region (Nat.lt_trans (indexOf_lt_slotCount h) region.slotCount_lt)]
  obtain ⟨low, high, aligned⟩ := h
  unfold indexOf
  cases region <;> simp only [base, supportedEnd, elementSize] at * <;> omega

/-- A check accepts the addresses of the elements and answers their storage index. -/
theorem check_eq_ok_iff_slot (region : Region) (address : Address) (index : Nat) :
    region.check address = .ok index ↔
      index < region.slotCount ∧ address = region.addressOf index := by
  rw [check_eq_ok_iff]
  constructor
  · rintro ⟨supported, rfl⟩
    exact ⟨indexOf_lt_slotCount supported, (addressOf_indexOf supported).symm⟩
  · rintro ⟨inside, rfl⟩
    exact ⟨supports_slot region inside,
      indexOf_addressOf region (Nat.lt_trans inside region.slotCount_lt)⟩

theorem check_addressOf (region : Region) {index : Nat} (h : index < 256) :
    region.check (region.addressOf index) = .ok index :=
  (check_eq_ok_iff_slot region _ _).mpr
    ⟨Nat.lt_of_lt_of_le h region.capacity_le_slotCount, rfl⟩

end Region

end TinyMips
