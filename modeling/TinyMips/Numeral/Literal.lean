import TinyMips.Address.Word
import TinyMips.Numeral.Digits
import TinyMips.Text.Blank

/-!
# Integer literals

The integer literals of the source language: an optional sign, then decimal digits or `0x` and
hexadecimal digits, of any length, with an exact value that fits a word.
-/

namespace TinyMips.Numeral

/-- The value of an unsigned literal: `0x` or `0X` and hexadecimal digits, or decimal digits. -/
def magnitude? : List Char → Option Nat
  | '0' :: 'x' :: digits => value? 16 digits
  | '0' :: 'X' :: digits => value? 16 digits
  | digits => value? 10 digits

/-- The exact value of an integer literal, before it is known to fit a word. -/
def integer? (token : List Char) : Option Int :=
  match Text.trim token with
  | '-' :: body => (magnitude? body).map fun n => -(n : Int)
  | '+' :: body => (magnitude? body).map fun n => (n : Int)
  | body => (magnitude? body).map fun n => (n : Int)

/-- The word that an integer literal stands for. -/
def literal? (token : List Char) : Option Word :=
  (integer? token).bind Word.ofInt?

/-- A token is meant as a number when its first character that is not blank is a digit or a
sign. -/
def looksNumeric (token : List Char) : Bool :=
  match Text.trim token with
  | c :: _ => c.isDigit || c == '-' || c == '+'
  | [] => false

end TinyMips.Numeral
