import TinyMips.Numeral.Written

/-!
# Decimals with a fixed number of places

A quotient is rounded to a whole number of hundredths, ten-thousandths and so on, a tie going to
the even neighbour, and written with that many digits after the point. A double is such a quotient
exactly: its bits give an integer and a power of two.
-/

namespace TinyMips.Decimal

/-- The integer nearest to a quotient; a tie goes to the even one. -/
def roundDiv (num den : Nat) : Nat :=
  let whole := num / den
  let twice := 2 * (num % den)
  if twice < den ∨ (twice = den ∧ whole % 2 = 0) then whole else whole + 1

/-- A number of units of the given decimal place, written with its point. -/
def ofUnits (places units : Nat) : String :=
  let fraction := Numeral.padLeft places (Nat.toDigits 10 (units % Nat.pow 10 places))
  String.ofList (Nat.toDigits 10 (units / Nat.pow 10 places)) ++ "." ++ String.ofList fraction

/-- A quotient, rounded to a number of places. -/
def ofQuotient (places num den : Nat) : String :=
  ofUnits places (roundDiv (num * Nat.pow 10 places) den)

/-- The value of a double that is finite and not negative, as a quotient. -/
def quotientOf (x : Float) : Nat × Nat :=
  let bits := x.toBits.toNat
  let exponent := bits / Nat.pow 2 52 % Nat.pow 2 11
  let fraction := bits % Nat.pow 2 52
  let (significand, power) :=
    if exponent = 0 then (fraction, 1) else (fraction + Nat.pow 2 52, exponent)
  if 1075 ≤ power then (significand * Nat.pow 2 (power - 1075), 1)
  else (significand, Nat.pow 2 (1075 - power))

/-- A double that is finite and not negative, rounded to a number of places. -/
def ofFloat (places : Nat) (x : Float) : String :=
  let (num, den) := quotientOf x
  ofQuotient places num den

end TinyMips.Decimal
