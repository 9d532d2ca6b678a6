import TinyMips.Address.Word
import Mathlib.Tactic.Ring

/-!
# Words and addresses as integers

The datapath wraps; what it computes is said here on the integers that its words stand for:

* **reading** — an address below `2 ^ 63` and its word stand for the same number
  (`Address.toInt_toInt64`, `Word.toNat_toUInt64`);
* **scaling** — the byte address of a word immediate is four times the immediate as long as
  nothing is lost (`Word.toInt_toBytes`), and both ways are shifts by two bits
  (`Word.toBytes_eq_shiftLeft`, `Word.ofBytes_eq_shiftRight`);
* **round trips** — an immediate comes back exactly if its two highest bits only repeat the sign
  (`Word.ofBytes_toBytes_iff`), and an address exactly if it is aligned (`Word.toBytes_ofBytes_iff`).
-/

namespace TinyMips

/-! ## Reading one kind as the other -/

/-- An address below `2 ^ 63` keeps its value as a word. -/
theorem Address.toInt_toInt64 {address : Address} (h : address.toNat < 2 ^ 63) :
    address.toInt64.toInt = address.toNat := by
  show address.toBitVec.toInt = address.toNat
  rw [BitVec.toInt_eq_toNat_of_lt]
  · rfl
  · show 2 * address.toNat < 2 ^ 64
    omega

/-- A word read as an address is its integer modulo `2 ^ 64`. -/
theorem Word.toNat_toUInt64_eq_emod (value : Word) :
    (value.toUInt64.toNat : Int) = value.toInt % 2 ^ 64 := by
  show (value.toBitVec.toNat : Int) = value.toBitVec.toInt % 2 ^ 64
  have := value.toBitVec.isLt
  rw [BitVec.toInt_eq_toNat_cond]
  split <;> omega

/-- A word that is not negative keeps its value as an address. -/
theorem Word.toNat_toUInt64 {value : Word} (h : 0 ≤ value.toInt) :
    (value.toUInt64.toNat : Int) = value.toInt := by
  have high := value.toInt_lt
  rw [Word.toNat_toUInt64_eq_emod]
  omega

/-- Adding a word to an address adds the integers, as long as the sum is an address. -/
theorem Address.toNat_add_toUInt64 {address : Address} {value : Word}
    (low : 0 ≤ (address.toNat : Int) + value.toInt)
    (high : (address.toNat : Int) + value.toInt < 2 ^ 64) :
    ((address + value.toUInt64).toNat : Int) = address.toNat + value.toInt := by
  rw [UInt64.toNat_add]
  push_cast
  rw [Word.toNat_toUInt64_eq_emod value]
  omega

namespace Word

/-! ## Word immediates and byte addresses -/

/-- The byte address of a word immediate is four times as large, unless the two highest bits of
the immediate carry something. -/
theorem toInt_toBytes {immediate : Word} (low : -2 ^ 61 ≤ immediate.toInt)
    (high : immediate.toInt < 2 ^ 61) : immediate.toBytes.toInt = 4 * immediate.toInt := by
  have four : (4 : Word).toInt = 4 := rfl
  unfold toBytes
  rw [Int64.toInt_mul, four, Int.bmod_eq_of_le (by omega) (by omega)]
  ring

/-- The word immediate of a byte address is a quarter of it, rounded down. -/
theorem toInt_ofBytes (address : Word) : (ofBytes address).toInt = address.toInt / 4 := by
  have low := address.le_toInt
  have high := address.toInt_lt
  unfold ofBytes
  rw [Int64.toInt_ofInt_of_le (by omega) (by omega)]

/-- The byte address of a word immediate is the immediate shifted up by two bits. -/
theorem toBytes_eq_shiftLeft (immediate : Word) : immediate.toBytes = immediate <<< 2 := by
  apply Int64.toBitVec_inj.mp
  show immediate.toBitVec * 4#64 = immediate.toBitVec <<< 2
  exact (BitVec.shiftLeft_eq_mul_twoPow immediate.toBitVec 2).symm

/-- The word immediate of a byte address is the address shifted down by two bits, with its sign. -/
theorem ofBytes_eq_shiftRight (address : Word) : address.ofBytes = address >>> 2 := by
  apply Int64.toInt_inj.mp
  rw [toInt_ofBytes]
  show address.toInt / 4 = (address.toBitVec.sshiftRight 2).toInt
  rw [BitVec.toInt_sshiftRight, Int.shiftRight_eq_div_pow]
  rfl

/-- A word immediate comes back from its byte address unless it loses something. -/
theorem ofBytes_toBytes_iff (immediate : Word) :
    immediate.toBytes.ofBytes = immediate ↔
      -2 ^ 61 ≤ immediate.toInt ∧ immediate.toInt < 2 ^ 61 := by
  rw [← Int64.toInt_inj, toInt_ofBytes]
  constructor
  · intro back
    have low := immediate.toBytes.le_toInt
    have high := immediate.toBytes.toInt_lt
    omega
  · intro ⟨low, high⟩
    rw [toInt_toBytes low high]
    omega

/-- A byte address comes back from its word immediate if it is aligned. -/
theorem toBytes_ofBytes_iff (address : Word) :
    address.ofBytes.toBytes = address ↔ 4 ∣ address.toInt := by
  have low := address.le_toInt
  have high := address.toInt_lt
  have quarter := toInt_ofBytes address
  rw [← Int64.toInt_inj, toInt_toBytes (by omega) (by omega), quarter]
  omega

theorem toBytes_ofBytes {address : Word} (aligned : address.toInt % 4 = 0) :
    (ofBytes address).toBytes = address :=
  (toBytes_ofBytes_iff address).mpr (Int.dvd_of_emod_eq_zero aligned)

theorem fits16_iff {value : Word} :
    value.fits16 = true ↔ -32768 ≤ value.toInt ∧ value.toInt ≤ 32767 := by
  simp [fits16]

end Word

end TinyMips
