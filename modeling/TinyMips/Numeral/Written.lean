/-!
# Written numbers

How numbers are written in messages, traces and disassembly: signed decimals, and addresses in
hexadecimal with at least eight digits.
-/

namespace TinyMips.Numeral

/-- The decimal digits of an integer, with a minus sign in front of a negative one. -/
def decimal : Int → List Char
  | .ofNat n => Nat.toDigits 10 n
  | .negSucc n => '-' :: Nat.toDigits 10 (n + 1)

/-- The digits with zeros in front, up to the given width. -/
def padLeft (width : Nat) (digits : List Char) : List Char :=
  List.replicate (width - digits.length) '0' ++ digits

/-- A number as `0x` and at least eight lower-case hexadecimal digits. -/
def hexadecimal (n : Nat) : List Char :=
  '0' :: 'x' :: padLeft 8 (Nat.toDigits 16 n)

end TinyMips.Numeral
