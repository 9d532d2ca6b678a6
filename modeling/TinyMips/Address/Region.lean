import TinyMips.Address.Word
import TinyMips.Numeral.Written

/-!
# Regions of the address space

The machine has two regions, instructions and data. Each is laid out in three bands: backed
storage that is cut into equal elements, addresses that are valid but not backed, and everything
else. `Region.check` sorts any address into them and gives the storage index of a supported one.
-/

namespace TinyMips

/-- The two regions of the address space. -/
inductive Region where
  | text
  | data
  deriving DecidableEq

namespace Region

/-- The first address of the region. -/
def base : Region → Nat
  | text => 0x00400000
  | data => 0x10010000

/-- The bytes of one element: an instruction word or a data double word. -/
def elementSize : Region → Nat
  | text => 4
  | data => 8

/-- The first address past backed storage. -/
def supportedEnd : Region → Nat
  | text => 0x00500000
  | data => 0x10010800

/-- The first address past the region. -/
def validEnd : Region → Nat
  | text => 0x10000000
  | data => 0x10040000

/-- How many items an assembly may place in either region. -/
def capacity (_ : Region) : Nat := 256

/-- The region's name in messages. -/
def name : Region → String
  | text => "instruction"
  | data => "data"

/-- The byte address of an element. -/
def addressOf (region : Region) (index : Nat) : Address :=
  UInt64.ofNat (region.base + index * region.elementSize)

end Region

/-- Where an address lies, seen from a region. -/
inductive AddressClass where
  | supported
  | unsupported
  | misaligned
  | outOfRange
  deriving DecidableEq

/-- Why a region refuses an address. A datapath value that is refused may be negative. -/
inductive AddressError where
  | misaligned (region : Region) (address : Address)
  | unsupported (region : Region) (address : Address)
  | outOfRange (region : Region) (value : Word)
  deriving DecidableEq

/-- The text of an address in messages and traces. -/
def Address.text (address : Address) : String :=
  String.ofList (Numeral.hexadecimal address.toNat)

/-- The text of a datapath value read as an address: its 64 bits without a sign. -/
def Word.addressText (value : Word) : String :=
  Address.text value.toUInt64

/-- The wording of a refusal. -/
def AddressError.message : AddressError → String
  | misaligned region address =>
    s!"{region.name} address {address.text} is not aligned to {region.elementSize} bytes"
  | unsupported region address =>
    let bound := Address.text (UInt64.ofNat region.supportedEnd)
    s!"{region.name} address {address.text} is valid but not supported (storage ends at {bound})"
  | outOfRange region value =>
    let low := Address.text (UInt64.ofNat region.base)
    let high := Address.text (UInt64.ofNat region.validEnd)
    s!"{region.name} address {value.addressText} is outside the valid range [{low}, {high})"

namespace Region

/-- Sorts an address into the bands of the region. Alignment matters only where there is
storage. -/
def classify (region : Region) (address : Address) : AddressClass :=
  let a := address.toNat
  if region.supportedEnd ≤ a ∧ a < region.validEnd then .unsupported
  else if region.base ≤ a ∧ a < region.supportedEnd then
    if (a - region.base) % region.elementSize = 0 then .supported else .misaligned
  else .outOfRange

/-- The storage index of a supported address, or the reason why the address is not one. -/
def check (region : Region) (address : Address) : Except AddressError Nat :=
  match region.classify address with
  | .supported => .ok ((address.toNat - region.base) / region.elementSize)
  | .unsupported => .error (.unsupported region address)
  | .misaligned => .error (.misaligned region address)
  | .outOfRange => .error (.outOfRange region address.toInt64)

/-- `check` for a value of the datapath: a negative one is out of range. -/
def checkValue (region : Region) (value : Word) : Except AddressError Nat :=
  if value < 0 then .error (.outOfRange region value) else region.check value.toUInt64

end Region

end TinyMips
