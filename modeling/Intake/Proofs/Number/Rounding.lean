import Intake.Proofs.Number.Magnitude

/-!
# Rounding to whole numbers

A decimal is rounded to the nearest whole number, and a tie goes away from zero.
Where a whole number comes out, nothing was lost on the way to it: the 28 digits
of the arithmetic hold every amount that can still be rounded.

There are three groups.

* Nearest.  `IsRounded` says which whole number is meant, and `IsRounded.unique`
  that there is one.
* Decimals.  `Decimal.value` is the number that a decimal stands for;
  `isRounded_of_round?` says what rounding gives.
* A hundred times.  `value_hundredfold` says that no digit is lost where a whole
  number comes out.
-/

namespace Intake.Number

/-! ## Nearest -/

/-- The whole number nearest to a rational.  Of two that are as near it is the one
that is further from zero. -/
structure IsRounded (q : ℚ) (n : ℤ) : Prop where
  near : |q - n| ≤ 1 / 2
  away : |q - n| = 1 / 2 → |q| ≤ |(n : ℚ)|

namespace IsRounded

variable {q : ℚ} {m n : ℤ}

theorem of_eq (h : q = n) : IsRounded q n := by
  refine ⟨?_, ?_⟩
  · rw [h, sub_self, abs_zero]
    norm_num
  · intro _
    rw [h]

/-- A rest below a half is dropped. -/
theorem add_of_lt {rest : ℚ} (hrest : 0 ≤ rest) (h : rest < 1 / 2) : IsRounded (n + rest) n := by
  have hdistance : |n + rest - n| = rest := by rw [add_sub_cancel_left, abs_of_nonneg hrest]
  refine ⟨?_, fun htie => ?_⟩
  · rw [hdistance]
    exact h.le
  · rw [hdistance] at htie
    linarith

/-- From a half on, a rest is made up to one. -/
theorem add_of_le (hn : 0 ≤ n) {rest : ℚ} (h : 1 / 2 ≤ rest) (hrest : rest < 1) :
    IsRounded (n + rest) (n + 1 : ℤ) := by
  have hn' : (0 : ℚ) ≤ n := by exact_mod_cast hn
  have hcast : ((n + 1 : ℤ) : ℚ) = n + 1 := by push_cast; rfl
  refine ⟨?_, fun _ => ?_⟩
  · rw [hcast, abs_le]
    constructor <;> linarith
  · rw [hcast, abs_of_nonneg (by linarith), abs_of_nonneg (by linarith)]
    linarith

theorem neg (h : IsRounded q n) : IsRounded (-q) (-n) := by
  have hdistance : |-q - ((-n : ℤ) : ℚ)| = |q - n| := by
    rw [Int.cast_neg, ← neg_sub_neg, sub_neg_eq_add, neg_neg, ← abs_neg]
    congr 1
    ring
  refine ⟨?_, ?_⟩
  · rw [hdistance]
    exact h.near
  · rw [hdistance, Int.cast_neg, abs_neg, abs_neg]
    exact h.away

/-- There is one nearest whole number.  Two of them would be next to each other,
with the rational between them, and of these one is nearer to zero. -/
theorem unique (h : IsRounded q n) (h' : IsRounded q m) : n = m := by
  wlog hlt : n < m generalizing n m
  · rcases lt_trichotomy n m with hnm | hnm | hnm
    · exact this h h' hnm
    · exact hnm
    · exact (this h' h hnm).symm
  have hnear := abs_le.1 h.near
  have hnear' := abs_le.1 h'.near
  have hstep : m = n + 1 := by
    have hle : (m : ℚ) < n + 2 := by linarith
    have hle' : m < n + 2 := by exact_mod_cast hle
    omega
  have hcast : (m : ℚ) = n + 1 := by exact_mod_cast hstep
  have hq : q = n + 1 / 2 := by linarith
  have haway : |q| ≤ |(n : ℚ)| := by
    apply h.away
    rw [hq]
    norm_num
  have haway' : |q| ≤ |(m : ℚ)| := by
    apply h'.away
    rw [hq, hcast]
    norm_num
  exfalso
  rcases le_or_gt 0 n with hn | hn
  · have hn' : (0 : ℚ) ≤ n := by exact_mod_cast hn
    rw [hq, abs_of_nonneg hn', abs_of_nonneg (by linarith)] at haway
    linarith
  · have hm' : (m : ℚ) ≤ 0 := by exact_mod_cast (show m ≤ 0 by omega)
    rw [hq, abs_of_nonpos hm', abs_of_nonpos (by linarith)] at haway'
    linarith

end IsRounded

/-! ## Decimals -/

/-- The number that a decimal stands for. -/
def Decimal.value (d : Decimal) : ℚ := if d.negative then -d.magnitude else d.magnitude

theorem abs_value (d : Decimal) : |d.value| = d.magnitude := by
  have hpos : 0 ≤ d.magnitude := by
    rw [Decimal.magnitude]
    positivity
  rw [Decimal.value]
  split
  · rw [abs_neg, abs_of_nonneg hpos]
  · exact abs_of_nonneg hpos

theorem magnitude_ofInt (n : ℤ) : (Decimal.ofInt n).magnitude = n.natAbs := by
  rw [Decimal.magnitude, Decimal.ofInt, zpow_zero, mul_one]

theorem value_ofInt (n : ℤ) : (Decimal.ofInt n).value = n := by
  rw [Decimal.value, magnitude_ofInt, Nat.cast_natAbs, Int.cast_abs]
  by_cases hn : n < 0
  · have hcast : (n : ℚ) < 0 := by exact_mod_cast hn
    rw [if_pos (by simpa [Decimal.ofInt] using hn), abs_of_neg hcast, neg_neg]
  · have hcast : (0 : ℚ) ≤ n := by exact_mod_cast not_lt.1 hn
    rw [if_neg (by simpa [Decimal.ofInt] using hn), abs_of_nonneg hcast]

/-- A quotient is rounded to the nearest whole number, ties upwards. -/
theorem isRounded_divHalfUp (n : Nat) {d : Nat} (hd : 0 < d) :
    IsRounded ((n : ℚ) / d) (Decimal.divHalfUp n d : ℕ) := by
  have hdQ : (0 : ℚ) < d := by exact_mod_cast hd
  have hrem : n % d < d := Nat.mod_lt n hd
  have hsplit : (n : ℚ) / d = (n / d : ℕ) + ((n % d : ℕ) : ℚ) / d := by
    have hdiv : (n : ℚ) = d * (n / d : ℕ) + (n % d : ℕ) := by
      exact_mod_cast (Nat.div_add_mod n d).symm
    field_simp
    exact hdiv
  have hlow : 0 ≤ ((n % d : ℕ) : ℚ) / d := by positivity
  have hhigh : ((n % d : ℕ) : ℚ) / d < 1 := by
    rw [div_lt_one hdQ]
    exact_mod_cast hrem
  rw [hsplit, Decimal.divHalfUp]
  split
  · rename_i hup
    have hhalf : 1 / 2 ≤ ((n % d : ℕ) : ℚ) / d := by
      rw [le_div_iff₀ hdQ]
      have hup' : (d : ℚ) ≤ 2 * (n % d : ℕ) := by exact_mod_cast hup
      linarith
    exact IsRounded.add_of_le (n := (n / d : ℕ)) (Int.natCast_nonneg _) hhalf hhigh
  · rename_i hdown
    have hhalf : ((n % d : ℕ) : ℚ) / d < 1 / 2 := by
      rw [div_lt_iff₀ hdQ]
      have hdown' : 2 * ((n % d : ℕ) : ℚ) < d := by exact_mod_cast not_le.1 hdown
      linarith
    exact IsRounded.add_of_lt (n := (n / d : ℕ)) hlow hhalf

/-- The absolute value of a decimal is rounded to the nearest whole number,
ties upwards. -/
theorem isRounded_roundedMagnitude (d : Decimal) : IsRounded d.magnitude d.roundedMagnitude := by
  rcases lt_or_ge d.exponent 0 with hneg | hpos
  · have hzero : d.exponent.toNat = 0 := by omega
    have hquotient : d.magnitude = (d.coefficient : ℚ) / (10 ^ (-d.exponent).toNat : ℕ) := by
      rw [Decimal.magnitude, zpow_eq_div_toNat, hzero]
      push_cast
      ring
    rw [hquotient, Decimal.roundedMagnitude, if_neg (by omega)]
    exact isRounded_divHalfUp d.coefficient (Nat.pow_pos (by norm_num))
  · apply IsRounded.of_eq
    rw [← roundedMagnitude_eq_magnitude hpos]
    exact_mod_cast rfl

/-- What rounding gives is the nearest whole number. -/
theorem isRounded_of_round? {d : Decimal} {n : ℤ} (h : d.round? = some n) :
    IsRounded d.value n := by
  have hmagnitude := isRounded_roundedMagnitude d
  rw [Decimal.round?] at h
  split at h
  · rw [← Option.some.inj h, Decimal.value]
    split
    · exact hmagnitude.neg
    · exact hmagnitude
  · cases h

/-! ## A hundred times -/

/-- A decimal that can be rounded after it was multiplied lost no digit. -/
theorem hundredfold_eq {d : Decimal} (hc : 0 ≤ d.exponent ∨ d.coefficient < 10 ^ 25) {n : ℤ}
    (h : d.hundredfold.round? = some n) :
    d.hundredfold = ⟨d.negative, d.coefficient * 100, d.exponent⟩ := by
  have hsmall : d.magnitude < 10 ^ 26 := by
    by_contra hlarge
    have hnone := (round?_hundredfold_eq_none_iff hc).2 (not_lt.1 hlarge)
    rw [hnone] at h
    cases h
  have hcoefficient : d.coefficient < 10 ^ 26 := by
    rcases lt_or_ge d.exponent 0 with hneg | hpos
    · have hfew := hc.resolve_left (by omega)
      omega
    · have hscale : (1 : ℚ) ≤ 10 ^ d.exponent := one_le_zpow₀ (by norm_num) hpos
      have hle : (d.coefficient : ℚ) ≤ d.magnitude :=
        le_mul_of_one_le_right (Nat.cast_nonneg _) hscale
      exact_mod_cast hle.trans_lt hsmall
  exact keepDigits_of_lt (by show d.coefficient * 100 < 10 ^ 28; omega)

/-- Where a whole number comes out of it, a hundred times a decimal is exact. -/
theorem value_hundredfold {d : Decimal} (hc : 0 ≤ d.exponent ∨ d.coefficient < 10 ^ 25) {n : ℤ}
    (h : d.hundredfold.round? = some n) : d.hundredfold.value = 100 * d.value := by
  rw [hundredfold_eq hc h, Decimal.value, Decimal.value, magnitude_mul_hundred]
  split
  · ring
  · rfl

end Intake.Number
