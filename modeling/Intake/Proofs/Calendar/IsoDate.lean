import Intake.Calendar.Layout
import Intake.Proofs.Number.Digits
import Mathlib.Tactic.IntervalCases

/-!
# Dates written and read

The text `YYYY-MM-DD` of a date is read as that date.

* `isoChars_eq` writes the text digit by digit.
* `readYear_digits`, `readMonth_digits` and `readDay_digits` read the parts.
* `read?_isoChars` is the result.
-/

namespace Intake.Calendar

open Text Number

theorem digitValue?_digitChar : ∀ d < 10, digitValue? (Nat.digitChar d) = some d := by decide

theorem isBlank_digitChar : ∀ d < 10, isBlank (Nat.digitChar d) = false := by decide

/-- A number below a hundred in two digits. -/
theorem padded_two {n : Nat} (h : n < 100) :
    padded 2 n = [Nat.digitChar (n / 10), Nat.digitChar (n % 10)] := by
  rw [padded_succ 0, padded_one (by omega)]
  rfl

/-- A number below ten thousand in four digits. -/
theorem padded_four {n : Nat} (h : n < 10000) :
    padded 4 n = [Nat.digitChar (n / 1000), Nat.digitChar (n / 100 % 10),
      Nat.digitChar (n / 10 % 10), Nat.digitChar (n % 10)] := by
  have hhundreds : n / 10 / 10 = n / 100 := by omega
  have hthousands : n / 100 / 10 = n / 1000 := by omega
  rw [padded_succ 2, padded_succ 1, hhundreds, padded_succ 0, hthousands, padded_one (by omega)]
  rfl

theorem daysIn_le (year month : Nat) : daysIn year month ≤ 31 := by
  unfold daysIn
  split
  case h_12 => split <;> decide
  all_goals decide

theorem Date.day_range (d : Date) : 1 ≤ d.day ∧ d.day ≤ 31 :=
  ⟨d.onCalendar.2.2.1, d.onCalendar.2.2.2.trans (daysIn_le _ _)⟩

theorem Date.isoChars_eq (d : Date) : d.isoChars =
    [Nat.digitChar (d.year / 1000), Nat.digitChar (d.year / 100 % 10),
      Nat.digitChar (d.year / 10 % 10), Nat.digitChar (d.year % 10), '-',
      Nat.digitChar (d.month / 10), Nat.digitChar (d.month % 10), '-',
      Nat.digitChar (d.day / 10), Nat.digitChar (d.day % 10)] := by
  have hyear := d.onCalendar.2.1
  have hmonth := d.month_range
  have hday := d.day_range
  rw [isoChars, padded_four (by omega), padded_two (by omega), padded_two (by omega)]
  rfl

/-- No part of the text is dropped at its ends. -/
theorem Date.trim_isoChars (d : Date) : trim d.isoChars = d.isoChars := by
  have hyear := d.onCalendar.2.1
  have hday := d.day_range
  have hfirst := isBlank_digitChar (d.year / 1000) (by omega)
  have hlast := isBlank_digitChar (d.day % 10) (by omega)
  rw [isoChars_eq]
  simp [trim, trimStart, trimEnd, hfirst, hlast]

theorem readYear_digits {n : Nat} (h : n < 10000) (rest : List Char) :
    readYear (Nat.digitChar (n / 1000) :: Nat.digitChar (n / 100 % 10) ::
      Nat.digitChar (n / 10 % 10) :: Nat.digitChar (n % 10) :: rest) = some (n, rest) := by
  have hvalue : ofDigits [n / 1000, n / 100 % 10, n / 10 % 10, n % 10] = n := by
    simp only [ofDigits, List.foldl_cons, List.foldl_nil]
    omega
  simp [readYear, digitValue?_digitChar (n / 1000) (by omega),
    digitValue?_digitChar (n / 100 % 10) (by omega),
    digitValue?_digitChar (n / 10 % 10) (by omega), digitValue?_digitChar (n % 10) (by omega),
    hvalue]

theorem readMonth_digits {n : Nat} (h : 1 ≤ n ∧ n ≤ 12) (rest : List Char) :
    readMonth (Nat.digitChar (n / 10) :: Nat.digitChar (n % 10) :: rest) = some (n, rest) := by
  obtain ⟨hlow, hhigh⟩ := h
  interval_cases n <;> rfl

theorem readDay_digits {n : Nat} (h : 1 ≤ n ∧ n ≤ 31) (rest : List Char) :
    readDay (Nat.digitChar (n / 10) :: Nat.digitChar (n % 10) :: rest) = some (n, rest) := by
  obtain ⟨hlow, hhigh⟩ := h
  interval_cases n <;> rfl

/-- The text of a date is read as that date, by the first layout. -/
theorem Date.read?_isoChars (d : Date) : Date.read? d.isoChars = some d := by
  have hyear := d.onCalendar.2.1
  have hlayout : isoDate.read? d.isoChars = some d := by
    rw [isoChars_eq, Layout.read?, isoDate]
    simp [Layout.parts, Item.read, readYear_digits (n := d.year) (by omega),
      readMonth_digits d.month_range, readDay_digits d.day_range, ofParts?_self]
  rw [Date.read?, trim_isoChars, layouts, List.findSome?_cons, hlayout]

end Intake.Calendar
