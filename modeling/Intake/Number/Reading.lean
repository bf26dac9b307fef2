import Intake.Number.Decimal
import Intake.Text.Blank
import Intake.Text.Digit

/-!
# Numbers read from text

Whole numbers as people write them, and decimals as doubles.

* `readInt?` reads a signed whole number of any script's digits, with
  single underscores between digits and padding around.
* `ofAsciiDigits` reads plain digits; more than `maxDigitsRead` digits are
  refused with their number.
* `toDouble` rounds a decimal to the nearest double.
-/

namespace Intake.Number

open Text

/-- The longest digit string that is read as a whole number. -/
def maxDigitsRead : Nat := 4300

/-- A digit string too long to be read. -/
structure TooLong where
  digits : Nat
  deriving DecidableEq, Repr

/-- Says how long the digit string is. -/
def TooLong.message (e : TooLong) : String :=
  "Exceeds the limit (" ++ toString maxDigitsRead
    ++ " digits) for integer string conversion: value has " ++ toString e.digits
    ++ " digits; use sys.set_int_max_str_digits() to increase the limit"

/-- Reads a string of ASCII digits. -/
def ofAsciiDigits (ds : List Char) : Except TooLong Nat :=
  if ds.length ≤ maxDigitsRead then .ok (ofDigits (ds.map fun c => c.toNat - '0'.toNat))
  else .error ⟨ds.length⟩

/-- The digit values of a text of digits, where a single underscore may
stand between two digits. -/
def digitGroups? : List Char → Option (List Nat)
  | [] => none
  | [c] => (digitValue? c).map fun d => [d]
  | c :: '_' :: rest => do
    let d ← digitValue? c
    let ds ← digitGroups? rest
    return d :: ds
  | c :: rest => do
    let d ← digitValue? c
    let ds ← digitGroups? rest
    return d :: ds

/-- A blank that may stand around a number: any but the four information
separators. -/
def isPadding (c : Char) : Bool := isBlank c && ! (0x1C ≤ c.toNat && c.toNat ≤ 0x1F)

/-- Drops the padding around a number. -/
def dropPadding (s : List Char) : List Char :=
  ((s.dropWhile isPadding).reverse.dropWhile isPadding).reverse

/-- Reads a signed whole number. -/
def readInt? (s : List Char) : Option Int :=
  let (negative, body) := match dropPadding s with
    | '-' :: rest => (true, rest)
    | '+' :: rest => (false, rest)
    | rest => (false, rest)
  match digitGroups? body with
  | none => none
  | some ds =>
    if ds.length ≤ maxDigitsRead then
      some (if negative then -(ofDigits ds : Int) else ofDigits ds)
    else none

example : readInt? " 1_000 ".toList = some 1000 ∧ readInt? "1__0".toList = none := by
  decide +kernel

example : readInt? "+\u0663".toList = some 3 ∧ readInt? "+ 3".toList = none := by
  decide +kernel

example : readInt? "\u001f3".toList = none := by decide +kernel

/-! ## Doubles -/

/-- The double nearest to a decimal. Decimals far outside the range of
doubles go to infinity and to zero without being written out. -/
def toDouble (d : Decimal) : Float :=
  let lead : Int := digitCount d.coefficient + d.exponent
  let magnitude : Float :=
    if d.coefficient = 0 ∨ lead < -400 then 0
    else if lead > 400 then 1.0 / 0.0
    else .ofScientific d.coefficient (d.exponent < 0) d.exponent.natAbs
  if d.negative then -magnitude else magnitude

end Intake.Number
