import Intake.Number.Decimal

/-!
# Shortest decimals of doubles

A finite double is `± mantissa * 2 ^ exponent`. Its shortest decimal has
the fewest significant digits among the decimals that read back as the
same double, and of those it is the nearest one.

* `Binary.ofFloat?` takes a double apart.
* `Binary.shortest` finds the decimal: for one digit, two digits and so on
  it tests the two neighbours of the value on the decimal grid.
* `shortest?` is the composition.
-/

namespace Intake.Number

/-- A finite double, its value being `± mantissa * 2 ^ exponent`. -/
structure Binary where
  negative : Bool
  mantissa : Nat
  exponent : Int
  deriving DecidableEq, Repr

namespace Binary

/-- Takes the bits of a double apart, `none` for an infinity or a value
that is not a number. -/
def ofBits? (bits : Nat) : Option Binary :=
  let negative := bits / Nat.pow 2 63 % 2 == 1
  let biased : Nat := bits / Nat.pow 2 52 % Nat.pow 2 11
  let fraction : Nat := bits % Nat.pow 2 52
  if biased = 2047 then none
  else if biased = 0 then some ⟨negative, fraction, -1074⟩
  else some ⟨negative, Nat.pow 2 52 + fraction, (biased : Int) - 1075⟩

/-- Takes a double apart. -/
def ofFloat? (x : Float) : Option Binary := ofBits? x.toBits.toNat

/-- The absolute value as a quotient of whole numbers. -/
def quotient (b : Binary) : Nat × Nat :=
  if 0 ≤ b.exponent then (b.mantissa * Nat.pow 2 b.exponent.toNat, 1)
  else (b.mantissa, Nat.pow 2 (-b.exponent).toNat)

/-- The exponent of the leading decimal digit of a positive quotient. -/
def leadingExponent (num den : Nat) : Int :=
  if den ≤ num then digitCount (num / den) - 1
  else
    let k := digitCount (den / num)
    if den ≤ num * Nat.pow 10 (k - 1) then -((k : Int) - 1) else -(k : Int)

/-- The least gap to a neighbouring double shrinks by half below a power
of two. -/
def atPowerOfTwo (b : Binary) : Bool := b.mantissa == Nat.pow 2 52 && b.exponent > -1074

/-- Whether the decimal `n * 10 ^ e` reads back as the double. The decimals
that do form an interval around the value, and its ends belong to it
exactly when the mantissa is even. -/
def readsBack (b : Binary) (n : Nat) (e : Int) : Bool :=
  let value := 4 * b.mantissa
  let low := value - (if b.atPowerOfTwo then 1 else 2)
  let high := value + 2
  -- compares `n * 10 ^ e` with `k * 2 ^ (exponent - 2)`
  let q := b.exponent - 2
  let left := n * Nat.pow 10 e.toNat * Nat.pow 2 (-q).toNat
  let right (k : Nat) := k * Nat.pow 2 q.toNat * Nat.pow 10 (-e).toNat
  if b.mantissa % 2 == 0 then right low ≤ left && left ≤ right high
  else right low < left && left < right high

/-- The nearest decimal with the last digit at `10 ^ e` that reads back. -/
def onGrid? (b : Binary) (e : Int) : Option Decimal :=
  let (num, den) := b.quotient
  let num := num * Nat.pow 10 (-e).toNat
  let den := den * Nat.pow 10 e.toNat
  let below := num / den
  let nearest := Decimal.divHalfEven num den
  let other := if nearest = below then below + 1 else below
  if b.readsBack nearest e then some ⟨b.negative, nearest, e⟩
  else if b.readsBack other e then some ⟨b.negative, other, e⟩
  else none

/-- Seventeen significant digits always suffice. -/
def maxDigits : Nat := 17

/-- The shortest decimal that reads back as the double. -/
def shortest (b : Binary) : Decimal :=
  if b.mantissa = 0 then ⟨b.negative, 0, 0⟩
  else
    let (num, den) := b.quotient
    let lead := leadingExponent num den
    ((List.range maxDigits).findSome? fun (k : Nat) => b.onGrid? (lead - k)).getD
      ⟨b.negative,
       Decimal.divHalfEven (num * Nat.pow 10 (16 - lead).toNat) (den * Nat.pow 10 (lead - 16).toNat),
       lead - 16⟩

end Binary

/-- The shortest decimal of a finite double. -/
def shortest? (x : Float) : Option Decimal := (Binary.ofFloat? x).map Binary.shortest

example : (Binary.ofBits? 0x3fb999999999999a).map Binary.shortest = some ⟨false, 1, -1⟩ := by
  decide +kernel

example : (Binary.ofBits? 1).map Binary.shortest = some ⟨false, 5, -324⟩ := by decide +kernel

end Intake.Number
