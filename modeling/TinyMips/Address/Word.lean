/-!
# Words and addresses

The datapath works on 64-bit two's-complement words that wrap; addresses are the same 64 bits read
without a sign. A *word immediate* counts instructions of four bytes, so it stands for the byte
address four times as large.
-/

namespace TinyMips

/-- A register, data or immediate value. Arithmetic wraps. -/
abbrev Word := Int64

/-- A byte address. Arithmetic wraps. -/
abbrev Address := UInt64

namespace Word

/-- The word of an integer between `-2 ^ 63` and `2 ^ 63 - 1`. -/
def ofInt? (value : Int) : Option Word :=
  if -0x8000000000000000 ≤ value ∧ value ≤ 0x7FFFFFFFFFFFFFFF then some (Int64.ofInt value)
  else none

/-- The byte address of a word immediate; the two highest bits are lost. -/
def toBytes (immediate : Word) : Word :=
  immediate * 4

/-- The word immediate of a byte address, rounded towards the floor. -/
def ofBytes (address : Word) : Word :=
  Int64.ofInt (address.toInt / 4)

/-- Whether the word is a signed 16-bit immediate. -/
def fits16 (value : Word) : Bool :=
  -32768 ≤ value.toInt && value.toInt ≤ 32767

end Word

end TinyMips
