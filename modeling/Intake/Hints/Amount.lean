import Intake.Json.Basic
import Intake.Number.Reading
import Intake.Number.Shortest
import Intake.Text.LetterCase

/-!
# Amounts and intervals

The values a model sends for money and for maintenance intervals: whole
numbers, doubles or texts.

* `cents` reads an amount of money in the declared unit.
* `months` reads an interval.
* A double is taken at its shortest decimal. Rounding to a whole number
  goes away from zero on ties and is refused beyond 28 digits.
-/

namespace Intake

open Text Number

/-- A value as it was sent. -/
inductive Quantity where
  | absent
  | int (n : Int)
  | double (x : Float)
  | text (s : List Char)

/-- A whole number of more than 28 digits cannot be rounded. -/
inductive Overflow where
  | tooManyDigits
  deriving DecidableEq, Repr

namespace Quantity

/-- Only numbers and strings are quantities. A string with an unpaired half
is a text that means nothing. -/
def ofJson : Json → Quantity
  | .int n => int n
  | .double x => double x
  | .str p => text ((Prose.chars? p).getD ['?'])
  | _ => absent

/-- Rounds to a whole number. -/
def round (d : Decimal) : Except Overflow Int :=
  match d.round? with
  | some n => .ok n
  | none => .error .tooManyDigits

/-! ## Money -/

/-- The names of the unit of a hundred cents. -/
def dollarUnits : List String := ["dollars", "dollar", "usd"]

/-- Whether a declared unit is the one of a hundred cents. -/
def isDollarUnit (unit : Option (List Char)) : Bool :=
  match unit with
  | none => false
  | some u => dollarUnits.any (·.toList == lowered (trim u))

/-- Zero is no amount. -/
def nonZero (n : Int) : Option Int := if n = 0 then none else some n

/-- Reads dollars with two places, `none` for other texts. The whole part
may hold commas. -/
def dollarText? (s : List Char) : Option (List Char × List Char) :=
  let body := match s with
    | '$' :: rest => rest
    | s => s
  match body.span (· != '.') with
  | (whole, ['.', a, b]) =>
    if ! whole.isEmpty && whole.all (fun c => c.isDigit || c == ',') && a.isDigit && b.isDigit then
      some (whole.filter (· != ','), [a, b])
    else none
  | _ => none

/-- Reads a money text: dollars with two places, or bare cents. -/
def centsOfText (s : List Char) : Option Nat :=
  let text := trim s
  match dollarText? text with
  | some ([], _) => none
  | some (whole, places) =>
    match ofAsciiDigits whole, ofAsciiDigits places with
    | .ok w, .ok p => some (w * 100 + p)
    | _, _ => none
  | none =>
    if ! text.isEmpty && text.all Char.isDigit then (ofAsciiDigits text).toOption else none

/-- The amount of a number in the declared unit. -/
def centsOfDecimal (d : Decimal) (unit : Option (List Char)) : Except Overflow (Option Int) :=
  match round (if isDollarUnit unit then d.hundredfold else d) with
  | .ok n => .ok (nonZero n)
  | .error e => .error e

/-- Reads an amount of money in cents. Numbers are in the declared unit,
texts ignore it; an infinity and a value that is not a number are absent. -/
def cents (unit : Option (List Char)) : Quantity → Except Overflow (Option Int)
  | absent => .ok none
  | text s => .ok ((centsOfText s).bind fun n => nonZero n)
  | int n => centsOfDecimal (.ofInt n) unit
  | double x =>
    match shortest? x with
    | some d => centsOfDecimal d unit
    | none => .ok none

/-- Whether a money text has digits beyond what can be read. -/
def isOverlongText (s : List Char) : Bool :=
  let text := trim s
  match dollarText? text with
  | some (whole, _) => decide (whole.length > maxDigitsRead)
  | none => text.all Char.isDigit && decide (text.length > maxDigitsRead)

/-! ## Intervals -/

/-- Reads a number of months, zero when it is no positive number. -/
def months : Quantity → Except Overflow Nat
  | absent => .ok 0
  | text s => .ok ((readInt? (trim s)).getD 0).toNat
  | int n => .ok n.toNat
  | double x =>
    match shortest? x with
    | some d => (round d).map Int.toNat
    | none => .ok 0

end Quantity
end Intake
