/-!
# Decimal digits of every script

The decimal digits (Unicode general category Nd, version 14) come in runs
of ten, from a zero up to a nine.

* `digitValue?` reads one character as a digit of any script.
* `digitValue?_lt` bounds the value; `digitValue?_ofAscii` says the ten
  ASCII digits have their usual values.
-/

namespace Intake.Text

/-- The zero of every run of ten decimal digits. -/
def digitZeros : List Nat :=
  0x0030 ::
  [0x0660, 0x06F0, 0x07C0, 0x0966, 0x09E6, 0x0A66, 0x0AE6, 0x0B66,
   0x0BE6, 0x0C66, 0x0CE6, 0x0D66, 0x0DE6, 0x0E50, 0x0ED0, 0x0F20, 0x1040,
   0x1090, 0x17E0, 0x1810, 0x1946, 0x19D0, 0x1A80, 0x1A90, 0x1B50, 0x1BB0,
   0x1C40, 0x1C50, 0xA620, 0xA8D0, 0xA900, 0xA9D0, 0xA9F0, 0xAA50, 0xABF0,
   0xFF10, 0x104A0, 0x10D30, 0x11066, 0x110F0, 0x11136, 0x111D0, 0x112F0,
   0x11450, 0x114D0, 0x11650, 0x116C0, 0x11730, 0x118E0, 0x11950, 0x11C50,
   0x11D50, 0x11DA0, 0x16A60, 0x16AC0, 0x16B50, 0x1D7CE, 0x1D7D8, 0x1D7E2,
   0x1D7EC, 0x1D7F6, 0x1E140, 0x1E2F0, 0x1E950, 0x1FBF0]

/-- The value of a decimal digit of any script, `none` for other characters. -/
def digitValue? (c : Char) : Option Nat :=
  (digitZeros.find? fun first => first ≤ c.toNat && c.toNat < first + 10).map (c.toNat - ·)

theorem digitValue?_lt {c : Char} {d : Nat} (h : digitValue? c = some d) : d < 10 := by
  obtain ⟨first, hfind, rfl⟩ := Option.map_eq_some_iff.1 h
  have hrange := List.find?_some hfind
  simp only [Bool.and_eq_true, decide_eq_true_eq] at hrange
  omega

/-- Whether a character is a decimal digit of some script. -/
def isDecimal (c : Char) : Bool := (digitValue? c).isSome

theorem digitValue?_ofAscii {c : Char} (h : c.isDigit = true) :
    digitValue? c = some (c.toNat - '0'.toNat) := by
  have hrange : 48 ≤ c.toNat ∧ c.toNat ≤ 57 := by
    simp only [Char.isDigit, Bool.and_eq_true, decide_eq_true_eq] at h
    exact ⟨h.1, h.2⟩
  have hlow : decide (0x0030 ≤ c.toNat) = true := decide_eq_true hrange.1
  have hhigh : decide (c.toNat < 0x0030 + 10) = true := decide_eq_true (by omega)
  rw [digitValue?, digitZeros, List.find?_cons, hlow, hhigh]
  rfl

/-- The number written by a list of digit values, most significant first. -/
def ofDigits (digits : List Nat) : Nat :=
  digits.foldl (fun n d => n * 10 + d) 0

end Intake.Text
