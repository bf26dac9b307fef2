import Intake.Calendar.Date
import Intake.Text.Blank
import Intake.Text.Digit
import Intake.Text.LetterCase

/-!
# Date layouts

The written forms of dates that are understood. A layout is a list of
items; a text matches when its items follow each other and nothing is
left.

* `Layout.read?` reads a text in one layout.
* `Date.read?` tries the known layouts in order.
-/

namespace Intake.Calendar

open Text

/-- One item of a layout. -/
inductive Item where
  | year
  | month
  | day
  | hour
  | minute
  | monthName
  | shortMonthName
  | blanks
  | char (c : Char)
  deriving DecidableEq, Repr

/-- A written form of dates. -/
abbrev Layout := List Item

/-- The months in order. -/
def monthNames : List String :=
  ["january", "february", "march", "april", "may", "june", "july", "august", "september",
   "october", "november", "december"]

/-- The months in order, shortened to three letters. -/
def shortMonthNames : List String :=
  ["jan", "feb", "mar", "apr", "may", "jun", "jul", "aug", "sep", "oct", "nov", "dec"]

/-! ## Reading one item -/

/-- A number and the text after it. -/
abbrev Found := Option (Nat × List Char)

/-- Four digits of any script. -/
def readYear : List Char → Found
  | a :: b :: c :: d :: rest => do
    let ds ← [a, b, c, d].mapM digitValue?
    return (ofDigits ds, rest)
  | _ => none

/-- Reads two digits, the first being an ASCII digit in a range and the
second one that `second` accepts. -/
def twoDigits (low high : Char) (second : Char → Option Nat) : List Char → Found
  | a :: b :: rest =>
    if low ≤ a && a ≤ high then
      (second b).map fun d => ((a.toNat - '0'.toNat) * 10 + d, rest)
    else none
  | _ => none

/-- Reads one digit that `accept` takes. -/
def oneDigit (accept : Char → Option Nat) : List Char → Found
  | a :: rest => (accept a).map fun d => (d, rest)
  | [] => none

/-- An ASCII digit in a range. -/
def digitIn (low high : Char) (c : Char) : Option Nat :=
  if low ≤ c && c ≤ high then some (c.toNat - '0'.toNat) else none

/-- A month in one or two digits. -/
def readMonth (s : List Char) : Found :=
  twoDigits '1' '1' (digitIn '0' '2') s <|> twoDigits '0' '0' (digitIn '1' '9') s <|>
    oneDigit (digitIn '1' '9') s

/-- A day in one or two digits; a space may stand for a leading zero. -/
def readDay (s : List Char) : Found :=
  twoDigits '3' '3' (digitIn '0' '1') s <|> twoDigits '1' '2' digitValue? s <|>
    twoDigits '0' '0' (digitIn '1' '9') s <|> oneDigit (digitIn '1' '9') s <|>
    match s with
    | ' ' :: rest => oneDigit (digitIn '1' '9') rest
    | _ => none

/-- An hour in one or two digits. -/
def readHour (s : List Char) : Found :=
  twoDigits '2' '2' (digitIn '0' '3') s <|> twoDigits '0' '1' digitValue? s <|>
    oneDigit digitValue? s

/-- A minute in one or two digits. -/
def readMinute (s : List Char) : Found :=
  twoDigits '0' '5' digitValue? s <|> oneDigit digitValue? s

/-- Whether a text begins with a lower-case ASCII word in any letter case. -/
def startsWith (word s : List Char) : Bool :=
  s.length ≥ word.length && (s.take word.length).map Char.toLower == word

/-- A month by name, in any letter case. -/
def readName (names : List String) (s : List Char) : Found :=
  (names.zipIdx.find? fun (name, _) => startsWith name.toList s).map fun (name, i) =>
    (i + 1, s.drop name.length)

/-! ## Reading a layout -/

/-- The parts of a date read so far. -/
structure Parts where
  year : Nat := 0
  month : Nat := 0
  day : Nat := 0

/-- Reads one item. -/
def Item.read (p : Parts) (s : List Char) : Item → Option (Parts × List Char)
  | .year => (readYear s).map fun (n, rest) => ({ p with year := n }, rest)
  | .month => (readMonth s).map fun (n, rest) => ({ p with month := n }, rest)
  | .day => (readDay s).map fun (n, rest) => ({ p with day := n }, rest)
  | .hour => (readHour s).map fun (_, rest) => (p, rest)
  | .minute => (readMinute s).map fun (_, rest) => (p, rest)
  | .monthName => (readName monthNames s).map fun (n, rest) => ({ p with month := n }, rest)
  | .shortMonthName =>
    (readName shortMonthNames s).map fun (n, rest) => ({ p with month := n }, rest)
  | .blanks =>
    match s with
    | c :: rest => if isBlank c then some (p, rest.dropWhile isBlank) else none
    | [] => none
  | .char d =>
    match s with
    | c :: rest => if c.toLower == d then some (p, rest) else none
    | [] => none

/-- Reads the items of a layout one after the other. -/
def Layout.parts (p : Parts) (s : List Char) : Layout → Option (Parts × List Char)
  | [] => some (p, s)
  | item :: items =>
    match item.read p s with
    | some (p, rest) => Layout.parts p rest items
    | none => none

/-- Reads a whole text in one layout. -/
def Layout.read? (layout : Layout) (s : List Char) : Option Date :=
  match layout.parts {} s with
  | some (p, []) => Date.ofParts? p.year p.month p.day
  | _ => none

/-- `2025-01-15`. -/
def isoDate : Layout := [.year, .char '-', .month, .char '-', .day]

/-- `1/15/2025`. -/
def slashDate : Layout := [.month, .char '/', .day, .char '/', .year]

/-- `January 15, 2025`. -/
def longDate : Layout := [.monthName, .blanks, .day, .char ',', .blanks, .year]

/-- `Jan 15, 2025`. -/
def shortDate : Layout := [.shortMonthName, .blanks, .day, .char ',', .blanks, .year]

/-- `2025-01-15T08:30`. -/
def isoMinute : Layout :=
  isoDate ++ [.char 't', .hour, .char ':', .minute]

/-- The known layouts in the order in which they are tried. -/
def layouts : List Layout := [isoDate, slashDate, longDate, shortDate, isoMinute]

/-- Reads a date in the first layout that matches. -/
def Date.read? (text : List Char) : Option Date :=
  layouts.findSome? (·.read? (trim text))

end Intake.Calendar
