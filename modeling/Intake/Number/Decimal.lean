/-!
# Decimal amounts

Signed decimals as a coefficient and a power of ten, with the arithmetic
that turns an amount into whole units: multiplication by a hundred in 28
significant digits, and rounding to a whole number of at most 28 digits.

* `Decimal.hundredfold` rounds ties to an even last digit.
* `Decimal.round?` rounds ties away from zero.
-/

namespace Intake.Number

/-- The number of decimal digits; zero has one. -/
def digitCount (n : Nat) : Nat := (Nat.toDigits 10 n).length

/-- A decimal number, its value being `± coefficient * 10 ^ exponent`. -/
structure Decimal where
  negative : Bool := false
  coefficient : Nat
  exponent : Int := 0
  deriving DecidableEq, Repr

namespace Decimal

/-- The significant digits that arithmetic keeps. -/
def precision : Nat := 28

/-- A whole number as a decimal. -/
def ofInt (n : Int) : Decimal := ⟨n < 0, n.natAbs, 0⟩

/-- Quotient rounded to the nearest whole number, ties to the even one. -/
def divHalfEven (n d : Nat) : Nat :=
  let q := n / d
  let r := 2 * (n % d)
  if r > d || (r == d && q % 2 == 1) then q + 1 else q

/-- Quotient rounded to the nearest whole number, ties upwards. -/
def divHalfUp (n d : Nat) : Nat := n / d + (if 2 * (n % d) ≥ d then 1 else 0)

/-- Keeps the leading digits of a decimal, rounding ties to even. -/
def keepDigits (d : Decimal) : Decimal :=
  let excess := digitCount d.coefficient - precision
  if d.coefficient < Nat.pow 10 precision then d
  else ⟨d.negative, divHalfEven d.coefficient (Nat.pow 10 excess), d.exponent + excess⟩

/-- A hundred times a decimal, in 28 significant digits. -/
def hundredfold (d : Decimal) : Decimal :=
  keepDigits ⟨d.negative, d.coefficient * 100, d.exponent⟩

/-- The absolute value rounded to a whole number, ties away from zero. -/
def roundedMagnitude (d : Decimal) : Nat :=
  if 0 ≤ d.exponent then d.coefficient * Nat.pow 10 d.exponent.toNat
  else divHalfUp d.coefficient (Nat.pow 10 (-d.exponent).toNat)

/-- The nearest whole number, ties away from zero; `none` when it has more
than 28 digits. -/
def round? (d : Decimal) : Option Int :=
  let n := d.roundedMagnitude
  if n < Nat.pow 10 precision then some (if d.negative then -(n : Int) else n) else none

end Decimal
end Intake.Number
