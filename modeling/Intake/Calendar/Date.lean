import Intake.Number.Written

/-!
# Calendar dates

Dates of the proleptic Gregorian calendar in the years 1 to 9999.

* `Date` holds a proof that it is on the calendar.
* `Date.ofParts?` makes a date of three numbers exactly when they are on
  the calendar (`ofParts?_isSome`).
* `Date.iso` writes `YYYY-MM-DD`.
-/

namespace Intake.Calendar

/-- Leap years are divisible by four, and by four hundred if by a hundred. -/
def isLeap (year : Nat) : Bool := year % 4 == 0 && (year % 100 != 0 || year % 400 == 0)

/-- The number of days in a month, zero for numbers that are no month. -/
def daysIn (year month : Nat) : Nat :=
  match month with
  | 1 | 3 | 5 | 7 | 8 | 10 | 12 => 31
  | 4 | 6 | 9 | 11 => 30
  | 2 => if isLeap year then 29 else 28
  | _ => 0

/-- Whether three numbers are a date. -/
def OnCalendar (year month day : Nat) : Prop :=
  1 ≤ year ∧ year ≤ 9999 ∧ 1 ≤ day ∧ day ≤ daysIn year month

instance (year month day : Nat) : Decidable (OnCalendar year month day) :=
  inferInstanceAs (Decidable (_ ∧ _))

/-- A date of the calendar. -/
structure Date where
  year : Nat
  month : Nat
  day : Nat
  onCalendar : OnCalendar year month day
  deriving DecidableEq

namespace Date

/-- Makes a date of three numbers. -/
def ofParts? (year month day : Nat) : Option Date :=
  if h : OnCalendar year month day then some ⟨year, month, day, h⟩ else none

theorem ofParts?_isSome {year month day : Nat} :
    (ofParts? year month day).isSome ↔ OnCalendar year month day := by
  unfold ofParts?
  split <;> simp [*]

theorem ofParts?_self (d : Date) : ofParts? d.year d.month d.day = some d := by
  simp [ofParts?, d.onCalendar]

theorem month_range (d : Date) : 1 ≤ d.month ∧ d.month ≤ 12 := by
  have h := d.onCalendar.2.2
  unfold daysIn at h
  split at h <;> omega

/-- The text `YYYY-MM-DD`. -/
def isoChars (d : Date) : List Char :=
  Number.padded 4 d.year ++ '-' :: Number.padded 2 d.month ++ '-' :: Number.padded 2 d.day

/-- `isoChars` as a string. -/
def iso (d : Date) : String := String.ofList d.isoChars

end Date
end Intake.Calendar
