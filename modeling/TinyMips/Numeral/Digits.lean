/-!
# Digits

Reading runs of digits in a base up to sixteen.
-/

namespace TinyMips.Numeral

/-- The value of a digit in bases up to 16; letters stand for the digits from 10 on. -/
def digit? (base : Nat) (c : Char) : Option Nat :=
  let value? :=
    if '0' ≤ c ∧ c ≤ '9' then some (c.toNat - '0'.toNat)
    else if 'a' ≤ c ∧ c ≤ 'f' then some (c.toNat - 'a'.toNat + 10)
    else if 'A' ≤ c ∧ c ≤ 'F' then some (c.toNat - 'A'.toNat + 10)
    else none
  value?.filter (· < base)

/-- The value of one or more digits, the first the most significant. Other text has none. -/
def value? (base : Nat) (digits : List Char) : Option Nat :=
  if digits.isEmpty then none
  else digits.foldlM (fun total c => (digit? base c).map (total * base + ·)) 0

end TinyMips.Numeral
