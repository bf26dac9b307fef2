import Intake.Number.Reading
import Intake.Number.Written
import Intake.Text.Quoted
import Mathlib.Data.List.Basic
import Mathlib.Data.Nat.Digits.Defs

/-!
# Digits written and read

The digits of a whole number are read back as that number, in any width and
up to the longest digit string that is read at all.

There are three groups.

* Padding.  `padded_succ` and `hex_succ` cut the last digit off a padded
  number, so that a number of a known width is written digit by digit.
* Reading back.  `ofAsciiDigits_digits` says that the digits of a number
  that is not too long are read as that number.
* Bounds.  `lt_of_ofAsciiDigits` and `natAbs_lt_of_readInt?` say that a
  number which was read is not too long.
-/

namespace Intake.Number

open Text

/-! ## Padding -/

/-- The last digit of a number padded to more than one digit. -/
theorem replicate_append_toDigits {base : Nat} (hbase : 1 < base) (width n : Nat) :
    List.replicate (width + 2 - (Nat.toDigits base n).length) '0' ++ Nat.toDigits base n =
      List.replicate (width + 1 - (Nat.toDigits base (n / base)).length) '0' ++
        Nat.toDigits base (n / base) ++ [Nat.digitChar (n % base)] := by
  rcases Nat.lt_or_ge n base with hlt | hge
  · have hzero : n / base = 0 := Nat.div_eq_of_lt hlt
    have hmod : n % base = n := Nat.mod_eq_of_lt hlt
    rw [Nat.toDigits_of_lt_base hlt, hzero, hmod, Nat.toDigits_zero]
    show List.replicate (width + 1) '0' ++ [Nat.digitChar n] =
      List.replicate width '0' ++ ['0'] ++ [Nat.digitChar n]
    rw [List.replicate_succ']
  · have hzeros : width + 2 - ((Nat.toDigits base (n / base)).length + 1) =
        width + 1 - (Nat.toDigits base (n / base)).length := by omega
    rw [Nat.toDigits_of_base_le hbase hge, List.length_append, List.length_singleton, hzeros,
      List.append_assoc]

theorem padded_succ (width n : Nat) :
    padded (width + 2) n = padded (width + 1) (n / 10) ++ [Nat.digitChar (n % 10)] :=
  replicate_append_toDigits (by decide) width n

theorem padded_one {n : Nat} (h : n < 10) : padded 1 n = [Nat.digitChar n] := by
  rw [padded, digits, Nat.toDigits_of_lt_base h]
  rfl

theorem hex_succ (width n : Nat) :
    hex (width + 2) n = hex (width + 1) (n / 16) ++ [Nat.digitChar (n % 16)] :=
  replicate_append_toDigits (by decide) width n

theorem hex_one {n : Nat} (h : n < 16) : hex 1 n = [Nat.digitChar n] := by
  rw [hex, Nat.toDigits_of_lt_base h]
  rfl

/-! ## Reading back -/

theorem ofDigits_digits (n : Nat) :
    ofDigits ((digits n).map fun c => c.toNat - '0'.toNat) = n := by
  have hvalue := Nat.ofDigitChars_ten_toDigits (n := n)
  rw [Nat.ofDigitChars] at hvalue
  rw [ofDigits, digits, List.foldl_map]
  simpa only [Nat.mul_comm] using hvalue

theorem length_digits_le {n k : Nat} (hk : 0 < k) (h : n < 10 ^ k) : (digits n).length ≤ k :=
  (Nat.length_toDigits_le_iff (by decide) hk).2 h

theorem isDigit_of_mem_digits {n : Nat} {c : Char} (h : c ∈ digits n) : c.isDigit = true :=
  Nat.isDigit_of_mem_toDigits (by decide) (by decide) h

theorem digits_ne_nil (n : Nat) : digits n ≠ [] := Nat.toDigits_ne_nil

/-- A number that is not too long is read as it was written. -/
theorem ofAsciiDigits_digits {n : Nat} (h : n < 10 ^ maxDigitsRead) :
    ofAsciiDigits (digits n) = .ok n := by
  have hlength : (digits n).length ≤ maxDigitsRead := length_digits_le (by decide) h
  rw [ofAsciiDigits, if_pos hlength, ofDigits_digits]

theorem digitChar_ne_zero : ∀ d < 10, 0 < d → Nat.digitChar d ≠ '0' := by decide

/-- Only zero is written with a leading zero. -/
theorem head?_digits_ne {n : Nat} (h : 0 < n) : (digits n).head? ≠ some '0' := by
  induction n using Nat.strongRecOn with
  | ind n ih =>
    rcases Nat.lt_or_ge n 10 with hlt | hge
    · rw [digits, Nat.toDigits_of_lt_base hlt, List.head?_cons, ne_eq, Option.some.injEq]
      exact digitChar_ne_zero n hlt h
    · have hpos : 0 < n / 10 := by omega
      rw [digits, Nat.toDigits_of_base_le (by decide) hge,
        List.head?_append_of_ne_nil _ Nat.toDigits_ne_nil]
      exact ih (n / 10) (by omega) hpos

/-! ## Bounds -/

theorem foldl_digits_lt {ds : List Nat} (h : ∀ d ∈ ds, d < 10) {n k : Nat} (hn : n < 10 ^ k) :
    ds.foldl (fun n d => n * 10 + d) n < 10 ^ (k + ds.length) := by
  induction ds generalizing n k with
  | nil => simpa using hn
  | cons d ds ih =>
    have hd : d < 10 := h d List.mem_cons_self
    have hnext : n * 10 + d < 10 ^ (k + 1) := by
      rw [Nat.pow_succ]
      omega
    have hrest := ih (fun d hd => h d (List.mem_cons_of_mem _ hd)) hnext
    rw [List.foldl_cons, List.length_cons]
    rwa [show k + (ds.length + 1) = k + 1 + ds.length by omega]

theorem ofDigits_lt {ds : List Nat} (h : ∀ d ∈ ds, d < 10) : ofDigits ds < 10 ^ ds.length := by
  have hlt : ofDigits ds < 10 ^ (0 + ds.length) := foldl_digits_lt h (by decide)
  rwa [Nat.zero_add] at hlt

theorem ofDigits_lt_of_length_le {ds : List Nat} (h : ∀ d ∈ ds, d < 10)
    (hlength : ds.length ≤ maxDigitsRead) : ofDigits ds < 10 ^ maxDigitsRead :=
  (ofDigits_lt h).trans_le (Nat.pow_le_pow_right (by decide) hlength)

theorem digitValue_lt {c : Char} (h : c.isDigit = true) : c.toNat - '0'.toNat < 10 := by
  have hvalue := digitValue?_ofAscii h
  exact digitValue?_lt hvalue

/-- Plain digits that are read at all are not too long. -/
theorem lt_of_ofAsciiDigits {ds : List Char} {n : Nat} (h : ofAsciiDigits ds = .ok n)
    (hdigits : ∀ c ∈ ds, c.isDigit = true) : n < 10 ^ maxDigitsRead := by
  rw [ofAsciiDigits] at h
  split at h
  · rename_i hlength
    rw [← Except.ok.inj h]
    refine ofDigits_lt_of_length_le (fun d hd => ?_) (by simpa using hlength)
    obtain ⟨c, hc, rfl⟩ := List.mem_map.1 hd
    exact digitValue_lt (hdigits c hc)
  · cases h

theorem lt_of_mem_digitGroups? {s : List Char} {ds : List Nat} (h : digitGroups? s = some ds) :
    ∀ d ∈ ds, d < 10 := by
  fun_induction digitGroups? s generalizing ds with
  | case1 => cases h
  | case2 c =>
    obtain ⟨d, hd, rfl⟩ := Option.map_eq_some_iff.1 h
    exact List.forall_mem_singleton.2 (digitValue?_lt hd)
  | case3 c rest ih =>
    simp only [Option.bind_eq_bind, Option.bind_eq_some_iff, Option.pure_def,
      Option.some.injEq] at h
    obtain ⟨d, hd, later, hlater, rfl⟩ := h
    exact List.forall_mem_cons.2 ⟨digitValue?_lt hd, ih hlater⟩
  | case4 c rest _ _ ih =>
    simp only [Option.bind_eq_bind, Option.bind_eq_some_iff, Option.pure_def,
      Option.some.injEq] at h
    obtain ⟨d, hd, later, hlater, rfl⟩ := h
    exact List.forall_mem_cons.2 ⟨digitValue?_lt hd, ih hlater⟩

/-- A whole number that a text gives is not too long. -/
theorem natAbs_lt_of_readInt? {s : List Char} {n : Int} (h : readInt? s = some n) :
    n.natAbs < 10 ^ maxDigitsRead := by
  rw [readInt?] at h
  split at h
  rename_i negative body _
  split at h
  · cases h
  · rename_i ds hds
    split at h
    · rename_i hlength
      have hlt := ofDigits_lt_of_length_le (lt_of_mem_digitGroups? hds) hlength
      rw [← Option.some.inj h]
      split
      · simpa using hlt
      · simpa using hlt
    · cases h

end Intake.Number
