import Intake.Calendar.Date

/-!
# Moments

Points in time, counted in microseconds from the start of 1970, and their
spellings in a journal.

* `Moment.after` is a number of seconds later, to the microsecond.
* `Moment.clockText`, `Moment.stampText` and `Moment.fileText` are the
  spellings.
-/

namespace Intake.Calendar

open Number

/-- A point in time in microseconds. -/
structure Moment where
  micros : Nat
  deriving DecidableEq, Repr, Inhabited

/-- A moment taken apart. -/
structure MomentParts where
  year : Nat
  month : Nat
  day : Nat
  hour : Nat
  minute : Nat
  second : Nat
  micros : Nat
  deriving DecidableEq, Repr

namespace Moment

/-- Rounds a number of microseconds that is not negative, ties to even. -/
def roundMicros (x : Float) : Nat :=
  let down := x.floor
  let rest := x - down
  let n := down.toUInt64.toNat
  if rest > 0.5 || (rest == 0.5 && n % 2 == 1) then n + 1 else n

/-- The moment some seconds later. Whole seconds count exactly. -/
def after (start : Moment) (seconds : Float) : Moment :=
  let whole := seconds.floor
  ⟨start.micros + whole.toUInt64.toNat * 1000000 + roundMicros ((seconds - whole) * 1e6)⟩

/-- Year, month and day of a day counted from the start of 1970. Years are
taken to begin in March, so that the leap day is the last of its year. -/
def civil (day : Nat) : Nat × Nat × Nat :=
  let z := day + 719468
  let era := z / 146097
  let ofEra := z % 146097
  let year := (ofEra - ofEra / 1460 + ofEra / 36524 - ofEra / 146096) / 365
  let ofYear := ofEra - (365 * year + year / 4 - year / 100)
  let march := (5 * ofYear + 2) / 153
  let month := if march < 10 then march + 3 else march - 9
  (year + era * 400 + (if month ≤ 2 then 1 else 0), month, ofYear - (153 * march + 2) / 5 + 1)

/-- Takes a moment apart. -/
def parts (m : Moment) : MomentParts :=
  let seconds := m.micros / 1000000
  let (year, month, day) := civil (seconds / 86400)
  { year := year, month := month, day := day
    hour := seconds % 86400 / 3600, minute := seconds % 3600 / 60, second := seconds % 60
    micros := m.micros % 1000000 }

/-- Joins padded numbers. -/
def joined (sep : List Char) (parts : List (Nat × Nat)) : List Char :=
  sep.intercalate (parts.map fun (width, n) => padded width n)

/-- The time of day, `HH:MM:SS`. -/
def clockText (m : Moment) : String :=
  let r := m.parts
  String.ofList (joined [':'] [(2, r.hour), (2, r.minute), (2, r.second)])

/-- The date and time with milliseconds. -/
def stampText (m : Moment) : String :=
  let r := m.parts
  String.ofList (joined ['-'] [(4, r.year), (2, r.month), (2, r.day)]) ++ " " ++ m.clockText
    ++ String.ofList ('.' :: padded 3 (r.micros / 1000))

/-- The date and time as part of a file name. -/
def fileText (m : Moment) : String :=
  let r := m.parts
  String.ofList (joined [] [(4, r.year), (2, r.month), (2, r.day)] ++ '_' ::
    joined [] [(2, r.hour), (2, r.minute), (2, r.second)])

example : civil 0 = (1970, 1, 1) ∧ civil 59 = (1970, 3, 1) ∧ civil 19782 = (2024, 2, 29) := by
  decide

end Moment
end Intake.Calendar
