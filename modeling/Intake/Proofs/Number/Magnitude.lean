import Intake.Number.Shortest
import Mathlib.Algebra.Order.Field.Power
import Mathlib.Data.Nat.Cast.Order.Field
import Mathlib.Tactic.FieldSimp
import Mathlib.Tactic.Linarith
import Mathlib.Tactic.NormNum
import Mathlib.Tactic.Positivity
import Mathlib.Tactic.Push
import Mathlib.Tactic.Ring

/-!
# Magnitudes

How large the numbers of this library are, as rationals, and which of them
can be rounded to a whole number of at most 28 digits.

There are five groups.

* The values.  `Binary.magnitude` and `Decimal.magnitude` are the absolute
  values of a double and of a decimal.
* The leading digit.  `leadingExponent_bounds` places the first digit of a
  quotient.
* The shortest decimal.  `shortest_spec` bounds it by the double it is for.
* Doubles below a bound.  `coefficient_shortest_le` bounds the digits of a
  shortest decimal, and `magnitude_shortest_lt` says that it is below
  `10 ^ 26` when the double is.  The decimal is not the double, so the second
  fact needs the gap that `magnitude_add_le` finds between `10 ^ 26` and the
  doubles below it.
* Rounding.  `round?_eq_none_iff` and `round?_hundredfold_eq_none_iff` say
  from which magnitude on a decimal, and a hundred times it, is not rounded.
-/

namespace Intake.Number

/-! ## Values -/

/-- The absolute value of a double. -/
def Binary.magnitude (b : Binary) : ℚ := b.mantissa * 2 ^ b.exponent

/-- The absolute value of a decimal. -/
def Decimal.magnitude (d : Decimal) : ℚ := d.coefficient * 10 ^ d.exponent

/-- A mantissa has at most 53 bits, and fewer only at the least exponent. -/
def Binary.IsDouble (b : Binary) : Prop :=
  b.mantissa < 2 ^ 53 ∧ (2 ^ 52 ≤ b.mantissa ∨ b.exponent = -1074)

theorem isDouble_of_ofBits? {bits : Nat} {b : Binary} (h : Binary.ofBits? bits = some b) :
    b.IsDouble := by
  have hfraction : bits % 2 ^ 52 < 2 ^ 52 := Nat.mod_lt _ (by norm_num)
  simp only [Binary.ofBits?, Nat.pow_eq] at h
  split_ifs at h
  · simp only [Option.some.injEq] at h
    subst h
    refine ⟨?_, Or.inr rfl⟩
    show bits % 2 ^ 52 < 2 ^ 53
    omega
  · simp only [Option.some.injEq] at h
    subst h
    refine ⟨?_, Or.inl ?_⟩
    · show 2 ^ 52 + bits % 2 ^ 52 < 2 ^ 53
      omega
    · show 2 ^ 52 ≤ 2 ^ 52 + bits % 2 ^ 52
      omega

/-- A power with an exponent cut off at zero, once on each side. -/
theorem zpow_eq_div_toNat (a : ℚ) (e : ℤ) :
    a ^ e = a ^ e.toNat / a ^ (-e).toNat := by
  rcases le_total 0 e with he | he
  · have h1 : (-e).toNat = 0 := by omega
    have h2 : ((e.toNat : ℕ) : ℤ) = e := Int.toNat_of_nonneg he
    rw [h1, pow_zero, div_one, ← zpow_natCast, h2]
  · have h1 : e.toNat = 0 := by omega
    have h2 : (((-e).toNat : ℕ) : ℤ) = -e := Int.toNat_of_nonneg (by omega)
    rw [h1, pow_zero, one_div, ← zpow_natCast, h2, zpow_neg, inv_inv]

theorem quotient_den_pos (b : Binary) : 0 < b.quotient.2 := by
  rw [Binary.quotient]
  simp only [Nat.pow_eq]
  split_ifs
  · exact Nat.one_pos
  · exact Nat.pow_pos (by norm_num)

theorem quotient_eq_magnitude (b : Binary) :
    (b.quotient.1 : ℚ) / b.quotient.2 = b.magnitude := by
  rw [Binary.quotient, Binary.magnitude, zpow_eq_div_toNat 2 b.exponent]
  simp only [Nat.pow_eq]
  split_ifs with h
  · have h1 : (-b.exponent).toNat = 0 := by omega
    rw [h1]
    push_cast
    ring
  · have h1 : b.exponent.toNat = 0 := by omega
    rw [h1]
    push_cast
    ring

/-! ## The leading digit -/

theorem lt_pow_digitCount (n : Nat) : n < 10 ^ digitCount n :=
  (Nat.length_toDigits_le_iff (by norm_num) Nat.length_toDigits_pos).1 (Nat.le_refl _)

theorem pow_digitCount_le {n : Nat} (h : 0 < n) : 10 ^ (digitCount n - 1) ≤ n := by
  by_contra hlt
  rw [Nat.not_le] at hlt
  rcases Nat.eq_zero_or_pos (digitCount n - 1) with hz | hpos
  · rw [hz] at hlt
    omega
  · have hle : digitCount n ≤ digitCount n - 1 :=
      (Nat.length_toDigits_le_iff (by norm_num) hpos).2 hlt
    omega

theorem digitCount_pos (n : Nat) : 0 < digitCount n := Nat.length_toDigits_pos

/-- The leading exponent of a quotient with a whole part. -/
private theorem leadingExponent_bounds_of_le {num den : Nat} (hden : 0 < den) (h : den ≤ num) :
    (10 : ℚ) ^ Binary.leadingExponent num den ≤ num / den ∧
      (num : ℚ) / den < 10 ^ (Binary.leadingExponent num den + 1) := by
  have hdenQ : (0 : ℚ) < den := by exact_mod_cast hden
  have hk := digitCount_pos (num / den)
  have hcast : ((digitCount (num / den) : ℤ) - 1) = ((digitCount (num / den) - 1 : ℕ) : ℤ) := by
    omega
  rw [Binary.leadingExponent, if_pos h, sub_add_cancel, hcast, zpow_natCast, zpow_natCast,
    le_div_iff₀ hdenQ, div_lt_iff₀ hdenQ]
  have hlow : 10 ^ (digitCount (num / den) - 1) * den ≤ num :=
    (Nat.le_div_iff_mul_le hden).1 (pow_digitCount_le (Nat.div_pos h hden))
  have hhigh : num < 10 ^ digitCount (num / den) * den :=
    (Nat.div_lt_iff_lt_mul hden).1 (lt_pow_digitCount (num / den))
  exact ⟨by exact_mod_cast hlow, by exact_mod_cast hhigh⟩

/-- The leading exponent of a quotient below one.  The digits of the
inverse are counted, so an exact power of ten is a case of its own. -/
private theorem leadingExponent_bounds_of_lt {num den : Nat} (hnum : 0 < num) (h : num < den) :
    (10 : ℚ) ^ Binary.leadingExponent num den ≤ num / den ∧
      (num : ℚ) / den < 10 ^ (Binary.leadingExponent num den + 1) := by
  have hnumQ : (0 : ℚ) < num := by exact_mod_cast hnum
  have hdenQ : (0 : ℚ) < den := by exact_mod_cast hnum.trans h
  have hk := digitCount_pos (den / num)
  have hcast : ((digitCount (den / num) : ℤ) - 1) = ((digitCount (den / num) - 1 : ℕ) : ℤ) := by
    omega
  have hlow : num * 10 ^ (digitCount (den / num) - 1) ≤ den := by
    rw [Nat.mul_comm]
    exact (Nat.le_div_iff_mul_le hnum).1 (pow_digitCount_le (Nat.div_pos h.le hnum))
  have hhigh : den < 10 ^ digitCount (den / num) * num :=
    (Nat.div_lt_iff_lt_mul hnum).1 (lt_pow_digitCount (den / num))
  rw [Binary.leadingExponent, if_neg (by omega)]
  show (10 : ℚ) ^ (if den ≤ num * 10 ^ (digitCount (den / num) - 1) then
      -((digitCount (den / num) : ℤ) - 1) else -(digitCount (den / num) : ℤ)) ≤ num / den ∧
    (num : ℚ) / den < 10 ^ ((if den ≤ num * 10 ^ (digitCount (den / num) - 1) then
      -((digitCount (den / num) : ℤ) - 1) else -(digitCount (den / num) : ℤ)) + 1)
  split_ifs with hle
  · have hdenEq : (den : ℚ) = num * 10 ^ (digitCount (den / num) - 1) := by
      exact_mod_cast Nat.le_antisymm hle hlow
    have hvalue : (num : ℚ) / den = 10 ^ (-((digitCount (den / num) : ℤ) - 1)) := by
      rw [hcast, zpow_neg, zpow_natCast, div_eq_iff (ne_of_gt hdenQ), hdenEq]
      field_simp
    rw [hvalue]
    exact ⟨le_refl _, zpow_lt_zpow_right₀ (by norm_num) (by omega)⟩
  · have hsucc : -(digitCount (den / num) : ℤ) + 1 = -((digitCount (den / num) - 1 : ℕ) : ℤ) := by
      omega
    rw [hsucc, zpow_neg, zpow_neg, zpow_natCast, zpow_natCast]
    constructor
    · rw [inv_le_iff_one_le_mul₀ (by positivity), div_mul_eq_mul_div, le_div_iff₀ hdenQ, one_mul,
        mul_comm]
      exact_mod_cast hhigh.le
    · rw [lt_inv_comm₀ (by positivity) (by positivity), inv_div, lt_div_iff₀ hnumQ, mul_comm]
      exact_mod_cast Nat.lt_of_not_le hle

/-- The leading exponent of a quotient is the exponent of its first
decimal digit. -/
theorem leadingExponent_bounds {num den : Nat} (hnum : 0 < num) (hden : 0 < den) :
    (10 : ℚ) ^ Binary.leadingExponent num den ≤ num / den ∧
      (num : ℚ) / den < 10 ^ (Binary.leadingExponent num den + 1) := by
  rcases Nat.lt_or_ge num den with h | h
  · exact leadingExponent_bounds_of_lt hnum h
  · exact leadingExponent_bounds_of_le hden h

/-! ## The shortest decimal -/

theorem divHalfEven_le {n d : Nat} (hd : 0 < d) :
    (Decimal.divHalfEven n d : ℚ) ≤ n / d + 1 / 2 := by
  have hdQ : (0 : ℚ) < d := by exact_mod_cast hd
  have hsplit : (n : ℚ) = d * (n / d : ℕ) + (n % d : ℕ) := by
    exact_mod_cast (Nat.div_add_mod n d).symm
  rw [← sub_le_iff_le_add, le_div_iff₀ hdQ, hsplit]
  simp only [Decimal.divHalfEven]
  split_ifs with h
  · have hround : d ≤ 2 * (n % d) := by
      simp only [Bool.or_eq_true, decide_eq_true_eq, Bool.and_eq_true, beq_iff_eq] at h
      omega
    have hroundQ : (d : ℚ) ≤ 2 * (n % d : ℕ) := by exact_mod_cast hround
    push_cast
    nlinarith
  · have hrest : (0 : ℚ) ≤ (n % d : ℕ) := Nat.cast_nonneg _
    nlinarith

/-- The value on the grid of a power of ten, as a quotient. -/
theorem grid_eq (b : Binary) (e : ℤ) :
    ((b.quotient.1 * 10 ^ (-e).toNat : ℕ) : ℚ) / (b.quotient.2 * 10 ^ e.toNat : ℕ) =
      b.magnitude / 10 ^ e := by
  have hden : (b.quotient.2 : ℚ) ≠ 0 := by exact_mod_cast (quotient_den_pos b).ne'
  rw [← quotient_eq_magnitude, zpow_eq_div_toNat 10 e]
  push_cast
  field_simp

/-- A decimal that reads back is at most half a step above the double. -/
theorem mul_le_of_readsBack {b : Binary} {n : Nat} {e : ℤ} (h : b.readsBack n e = true) :
    (n : ℚ) * 10 ^ e ≤ b.magnitude + 2 ^ b.exponent / 2 := by
  have hhigh : n * 10 ^ e.toNat * 2 ^ (-(b.exponent - 2)).toNat ≤
      (4 * b.mantissa + 2) * 2 ^ (b.exponent - 2).toNat * 10 ^ (-e).toNat := by
    simp only [Binary.readsBack, Nat.pow_eq] at h
    split at h
    · simp only [Bool.and_eq_true, decide_eq_true_eq] at h
      exact h.2
    · simp only [Bool.and_eq_true, decide_eq_true_eq] at h
      exact Nat.le_of_lt h.2
  have hhighQ : (n : ℚ) * 10 ^ e.toNat * 2 ^ (-(b.exponent - 2)).toNat ≤
      (4 * b.mantissa + 2) * 2 ^ (b.exponent - 2).toNat * 10 ^ (-e).toNat := by
    exact_mod_cast hhigh
  have hshift : (2 : ℚ) ^ b.exponent = 4 * 2 ^ (b.exponent - 2) := by
    rw [zpow_sub₀ (by norm_num)]
    norm_num
    ring
  rw [Binary.magnitude, hshift, zpow_eq_div_toNat 10 e, zpow_eq_div_toNat 2 (b.exponent - 2)]
  have hten : (0 : ℚ) < 10 ^ (-e).toNat := by positivity
  have htwo : (0 : ℚ) < 2 ^ (-(b.exponent - 2)).toNat := by positivity
  have hright : (b.mantissa : ℚ) *
        (4 * (2 ^ (b.exponent - 2).toNat / 2 ^ (-(b.exponent - 2)).toNat)) +
      4 * (2 ^ (b.exponent - 2).toNat / 2 ^ (-(b.exponent - 2)).toNat) / 2 =
      (4 * b.mantissa + 2) * 2 ^ (b.exponent - 2).toNat / 2 ^ (-(b.exponent - 2)).toNat := by
    ring
  rw [hright, ← mul_div_assoc, div_le_div_iff₀ hten htwo]
  exact hhighQ

theorem onGrid?_spec {b : Binary} {e : ℤ} {d : Decimal} (h : b.onGrid? e = some d) :
    d.exponent = e ∧ (d.coefficient : ℚ) ≤ b.magnitude / 10 ^ e + 1 ∧
      b.readsBack d.coefficient e = true := by
  have hden : 0 < b.quotient.2 * 10 ^ e.toNat :=
    Nat.mul_pos (quotient_den_pos b) (Nat.pow_pos (by norm_num))
  have hbelow : ((b.quotient.1 * 10 ^ (-e).toNat / (b.quotient.2 * 10 ^ e.toNat) : ℕ) : ℚ) ≤
      b.magnitude / 10 ^ e := by
    rw [← grid_eq]
    exact Nat.cast_div_le
  have hnearest := divHalfEven_le (n := b.quotient.1 * 10 ^ (-e).toNat) hden
  rw [grid_eq] at hnearest
  simp only [Binary.onGrid?, Nat.pow_eq] at h
  split_ifs at h with h1 h2 h3 h3
  · simp only [Option.some.injEq] at h
    subst h
    exact ⟨rfl, by linarith, h1⟩
  · simp only [Option.some.injEq] at h
    subst h
    refine ⟨rfl, ?_, h3⟩
    push_cast
    linarith
  · simp only [Option.some.injEq] at h
    subst h
    exact ⟨rfl, by linarith, h3⟩

private theorem shortest_eq_getD {b : Binary} (hb : b.mantissa ≠ 0) :
    b.shortest = ((List.range Binary.maxDigits).findSome? fun (k : Nat) =>
        b.onGrid? (Binary.leadingExponent b.quotient.1 b.quotient.2 - k)).getD
      ⟨b.negative,
        Decimal.divHalfEven
          (b.quotient.1 * 10 ^ (16 - Binary.leadingExponent b.quotient.1 b.quotient.2).toNat)
          (b.quotient.2 * 10 ^ (Binary.leadingExponent b.quotient.1 b.quotient.2 - 16).toNat),
        Binary.leadingExponent b.quotient.1 b.quotient.2 - 16⟩ := by
  rw [Binary.shortest, if_neg hb]
  rfl

/-- The shortest decimal has its last digit among the first seventeen.
Either it reads back or it is the nearest one of seventeen digits. -/
theorem shortest_spec {b : Binary} (hb : b.mantissa ≠ 0) :
    ∃ lead : ℤ, (10 : ℚ) ^ lead ≤ b.magnitude ∧ b.magnitude < 10 ^ (lead + 1) ∧
      lead - 16 ≤ b.shortest.exponent ∧
      (b.shortest.coefficient : ℚ) ≤ b.magnitude / 10 ^ b.shortest.exponent + 1 ∧
      (b.readsBack b.shortest.coefficient b.shortest.exponent = true ∨
        b.shortest.exponent = lead - 16 ∧
          (b.shortest.coefficient : ℚ) ≤ b.magnitude / 10 ^ b.shortest.exponent + 1 / 2) := by
  have hden := quotient_den_pos b
  have hnum : 0 < b.quotient.1 := by
    rw [Binary.quotient]
    split_ifs
    · exact Nat.mul_pos (by omega) (Nat.pow_pos (by norm_num))
    · show 0 < b.mantissa
      omega
  have hlead := leadingExponent_bounds hnum hden
  rw [quotient_eq_magnitude] at hlead
  refine ⟨Binary.leadingExponent b.quotient.1 b.quotient.2, hlead.1, hlead.2, ?_⟩
  rw [shortest_eq_getD hb]
  cases hfind : (List.range Binary.maxDigits).findSome? fun (k : Nat) =>
      b.onGrid? (Binary.leadingExponent b.quotient.1 b.quotient.2 - k) with
  | some d =>
    obtain ⟨k, hk, hd⟩ := List.exists_of_findSome?_eq_some hfind
    have hk17 : k < 17 := List.mem_range.1 hk
    obtain ⟨he, hc, hback⟩ := onGrid?_spec hd
    rw [← he] at hc hback
    refine ⟨?_, hc, Or.inl hback⟩
    show _ ≤ d.exponent
    rw [he]
    omega
  | none =>
    have hden' : 0 < b.quotient.2 *
        10 ^ (Binary.leadingExponent b.quotient.1 b.quotient.2 - 16).toNat :=
      Nat.mul_pos hden (Nat.pow_pos (by norm_num))
    have hnearest := divHalfEven_le (n := b.quotient.1 *
      10 ^ (-(Binary.leadingExponent b.quotient.1 b.quotient.2 - 16)).toNat) hden'
    rw [grid_eq, neg_sub] at hnearest
    rw [Option.getD_none]
    exact ⟨le_refl _, hnearest.trans (by linarith), Or.inr ⟨rfl, hnearest⟩⟩

/-! ## Doubles below a bound -/

/-- The digits of a shortest decimal. -/
theorem coefficient_shortest_le (b : Binary) : b.shortest.coefficient ≤ 10 ^ 17 := by
  by_cases hb : b.mantissa = 0
  · rw [Binary.shortest, if_pos hb]
    exact Nat.zero_le _
  · obtain ⟨lead, _, hlt, hexp, hc, _⟩ := shortest_spec hb
    have hquot : b.magnitude / 10 ^ b.shortest.exponent < 10 ^ (17 : ℤ) := by
      rw [div_lt_iff₀ (by positivity), ← zpow_add₀ (by norm_num)]
      exact hlt.trans_le (zpow_le_zpow_right₀ (by norm_num) (by omega))
    have hcQ : (b.shortest.coefficient : ℚ) < 10 ^ 17 + 1 := by
      have hpow : (10 : ℚ) ^ (17 : ℤ) = 10 ^ 17 := rfl
      linarith
    have hcN : b.shortest.coefficient < 10 ^ 17 + 1 := by exact_mod_cast hcQ
    exact Nat.le_of_lt_succ hcN

/-- The exponent of a double below `10 ^ 26`. -/
theorem exponent_le_of_magnitude_lt {b : Binary} (hd : b.IsDouble)
    (hlt : b.magnitude < 10 ^ 26) : b.exponent ≤ 34 := by
  by_contra hexp
  have hmantissa : (2 : ℚ) ^ 52 ≤ b.mantissa := by
    rcases hd.2 with h | h
    · exact_mod_cast h
    · omega
  have hpow : (2 : ℚ) ^ (35 : ℤ) ≤ 2 ^ b.exponent := zpow_le_zpow_right₀ (by norm_num) (by omega)
  have hprod : (2 : ℚ) ^ 52 * 2 ^ (35 : ℤ) ≤ b.magnitude :=
    mul_le_mul hmantissa hpow (by positivity) (by positivity)
  norm_num at hprod hlt
  linarith

/-- No double lies in the last stretch below `10 ^ 26`. -/
theorem magnitude_add_le {b : Binary} (hd : b.IsDouble) (hlt : b.magnitude < 10 ^ 26) :
    b.magnitude + 10 ^ 10 ≤ 10 ^ 26 := by
  have hexp := exponent_le_of_magnitude_lt hd hlt
  rcases Int.lt_or_eq_of_le hexp with h | h
  · have hmantissa : (b.mantissa : ℚ) ≤ 2 ^ 53 := by exact_mod_cast Nat.le_of_lt hd.1
    have hpow : (2 : ℚ) ^ b.exponent ≤ 2 ^ (33 : ℤ) :=
      zpow_le_zpow_right₀ (by norm_num) (by omega)
    have hprod : b.magnitude ≤ 2 ^ 53 * 2 ^ (33 : ℤ) :=
      mul_le_mul hmantissa hpow (by positivity) (by positivity)
    norm_num at hprod ⊢
    linarith
  · -- at this exponent the doubles are more than `10 ^ 10` apart
    rw [Binary.magnitude, h] at hlt ⊢
    have hnat : b.mantissa * 2 ^ 34 < 10 ^ 26 := by exact_mod_cast hlt
    have hstep : b.mantissa * 2 ^ 34 + 10 ^ 10 ≤ 10 ^ 26 := by omega
    exact_mod_cast hstep

/-- The shortest decimal of a double below `10 ^ 26` is below it too. -/
theorem magnitude_shortest_lt {b : Binary} (hd : b.IsDouble) (hlt : b.magnitude < 10 ^ 26) :
    b.shortest.magnitude < 10 ^ 26 := by
  by_cases hb : b.mantissa = 0
  · rw [Binary.shortest, if_pos hb]
    simp [Decimal.magnitude]
  · have hgap := magnitude_add_le hd hlt
    obtain ⟨lead, hlow, _, _, _, hback | ⟨he, hc⟩⟩ := shortest_spec hb
    · have hle := mul_le_of_readsBack hback
      have hpow : (2 : ℚ) ^ b.exponent ≤ 2 ^ (34 : ℤ) :=
        zpow_le_zpow_right₀ (by norm_num) (exponent_le_of_magnitude_lt hd hlt)
      rw [Decimal.magnitude]
      norm_num at hpow hgap ⊢
      linarith
    · have hlead : lead < 26 := by
        have h26 : (10 : ℚ) ^ lead < 10 ^ (26 : ℤ) := hlow.trans_lt (by exact_mod_cast hlt)
        exact (zpow_lt_zpow_iff_right₀ (by norm_num)).1 h26
      have hpow : (10 : ℚ) ^ b.shortest.exponent ≤ 10 ^ (9 : ℤ) :=
        zpow_le_zpow_right₀ (by norm_num) (by omega)
      have hpos : (0 : ℚ) < 10 ^ b.shortest.exponent := by positivity
      have hmul : b.shortest.magnitude ≤ b.magnitude + 10 ^ b.shortest.exponent / 2 := by
        have hscaled := mul_le_mul_of_nonneg_right hc hpos.le
        rw [add_mul, div_mul_cancel₀ _ hpos.ne'] at hscaled
        rw [Decimal.magnitude]
        linarith
      norm_num at hpow hgap ⊢
      linarith

/-! ## Rounding -/

/-- A decimal without places is rounded to itself. -/
theorem roundedMagnitude_eq_magnitude {d : Decimal} (h : 0 ≤ d.exponent) :
    (d.roundedMagnitude : ℚ) = d.magnitude := by
  have hzero : (-d.exponent).toNat = 0 := by omega
  rw [Decimal.roundedMagnitude, if_pos h, Decimal.magnitude, zpow_eq_div_toNat, hzero]
  simp only [Nat.pow_eq]
  push_cast
  ring

/-- Few digits stay few when some of them are places. -/
theorem roundedMagnitude_lt_of_neg {d : Decimal} (h : d.exponent < 0)
    (hc : d.coefficient < 10 ^ 27) : d.roundedMagnitude < 10 ^ 28 := by
  rw [Decimal.roundedMagnitude, if_neg (by omega), Decimal.divHalfUp]
  have hquot : d.coefficient / Nat.pow 10 (-d.exponent).toNat ≤ d.coefficient :=
    Nat.div_le_self _ _
  split_ifs
  · omega
  · omega

theorem magnitude_le_coefficient {d : Decimal} (h : d.exponent ≤ 0) :
    d.magnitude ≤ d.coefficient := by
  have hscale : (10 : ℚ) ^ d.exponent ≤ 1 := zpow_le_one_of_nonpos₀ (by norm_num) h
  exact mul_le_of_le_one_right (Nat.cast_nonneg _) hscale

/-- Rounding fails exactly from `10 ^ 28` on. -/
theorem round?_eq_none_iff {d : Decimal} (hc : 0 ≤ d.exponent ∨ d.coefficient < 10 ^ 27) :
    d.round? = none ↔ 10 ^ 28 ≤ d.magnitude := by
  have hround : d.round? = none ↔ 10 ^ 28 ≤ d.roundedMagnitude := by
    rw [Decimal.round?]
    simp only [ite_eq_right_iff, reduceCtorEq, imp_false, not_lt]
    exact Iff.rfl
  rw [hround]
  rcases lt_or_ge d.exponent 0 with hneg | hpos
  · have hcoefficient : d.coefficient < 10 ^ 27 := hc.resolve_left (by omega)
    have hlt := roundedMagnitude_lt_of_neg hneg hcoefficient
    have hle := magnitude_le_coefficient hneg.le
    have hcast : (d.coefficient : ℚ) < 10 ^ 27 := by exact_mod_cast hcoefficient
    refine iff_of_false (by omega) fun h => ?_
    linarith
  · rw [← roundedMagnitude_eq_magnitude hpos]
    exact_mod_cast Iff.rfl

example : (⟨true, 5, -1⟩ : Decimal).round? = some (-1) := by decide

/-- No digit is lost below `10 ^ 28`. -/
theorem keepDigits_of_lt {d : Decimal} (h : d.coefficient < 10 ^ 28) : d.keepDigits = d := by
  have hlt : d.coefficient < Nat.pow 10 Decimal.precision := h
  rw [Decimal.keepDigits]
  exact if_pos hlt

theorem exponent_keepDigits_nonneg {d : Decimal} (h : 0 ≤ d.exponent) :
    0 ≤ d.keepDigits.exponent := by
  simp only [Decimal.keepDigits]
  split_ifs
  · exact h
  · exact Int.add_nonneg h (Int.natCast_nonneg _)

theorem lt_digitCount {n : Nat} (h : 10 ^ 28 ≤ n) : 28 < digitCount n := by
  by_contra hle
  have hlt := lt_pow_digitCount n
  have hpow : 10 ^ digitCount n ≤ 10 ^ 28 := Nat.pow_le_pow_right (by norm_num) (by omega)
  omega

/-- A coefficient that is cut keeps 28 digits. -/
theorem le_divHalfEven_digits {n : Nat} (h : 10 ^ 28 ≤ n) :
    10 ^ 27 ≤ Decimal.divHalfEven n (10 ^ (digitCount n - 28)) := by
  have hdigits := lt_digitCount h
  have hquot : 10 ^ 27 ≤ n / 10 ^ (digitCount n - 28) := by
    rw [Nat.le_div_iff_mul_le (Nat.pow_pos (by norm_num)), ← Nat.pow_add,
      show 27 + (digitCount n - 28) = digitCount n - 1 by omega]
    exact pow_digitCount_le (by omega)
  simp only [Decimal.divHalfEven]
  split_ifs
  · omega
  · exact hquot

/-- Cutting a whole number to 28 digits does not take it below `10 ^ 28`. -/
theorem le_magnitude_keepDigits_iff {d : Decimal} (h : 0 ≤ d.exponent) :
    10 ^ 28 ≤ d.keepDigits.magnitude ↔ 10 ^ 28 ≤ d.magnitude := by
  rcases Nat.lt_or_ge d.coefficient (10 ^ 28) with hlt | hge
  · rw [keepDigits_of_lt hlt]
  · have hscale : (1 : ℚ) ≤ 10 ^ d.exponent := one_le_zpow₀ (by norm_num) h
    have hgeQ : (10 : ℚ) ^ 28 ≤ d.coefficient := by exact_mod_cast hge
    have hbefore : 10 ^ 28 ≤ d.magnitude :=
      hgeQ.trans (le_mul_of_one_le_right (Nat.cast_nonneg _) hscale)
    have hdigits := lt_digitCount hge
    have hkept : d.keepDigits =
        ⟨d.negative, Decimal.divHalfEven d.coefficient (10 ^ (digitCount d.coefficient - 28)),
          d.exponent + (digitCount d.coefficient - 28 : ℕ)⟩ := by
      rw [Decimal.keepDigits]
      exact if_neg (Nat.not_lt.2 hge)
    have hcut : (10 : ℚ) ^ 27 ≤
        Decimal.divHalfEven d.coefficient (10 ^ (digitCount d.coefficient - 28)) := by
      exact_mod_cast le_divHalfEven_digits hge
    have hten : (10 : ℚ) ^ (1 : ℤ) ≤ 10 ^ (d.exponent + (digitCount d.coefficient - 28 : ℕ)) :=
      zpow_le_zpow_right₀ (by norm_num) (by omega)
    have hafter : 10 ^ 28 ≤ d.keepDigits.magnitude := by
      rw [hkept, Decimal.magnitude]
      calc (10 : ℚ) ^ 28 = 10 ^ 27 * 10 ^ (1 : ℤ) := by norm_num
        _ ≤ _ := mul_le_mul hcut hten (by positivity) (by positivity)
    exact iff_of_true hafter hbefore

theorem magnitude_mul_hundred (negative : Bool) (n : Nat) (e : ℤ) :
    Decimal.magnitude ⟨negative, n * 100, e⟩ = 100 * Decimal.magnitude ⟨negative, n, e⟩ := by
  rw [Decimal.magnitude, Decimal.magnitude]
  push_cast
  ring

/-- Rounding a hundred times a decimal fails exactly from `10 ^ 26` on. -/
theorem round?_hundredfold_eq_none_iff {d : Decimal}
    (hc : 0 ≤ d.exponent ∨ d.coefficient < 10 ^ 25) :
    d.hundredfold.round? = none ↔ 10 ^ 26 ≤ d.magnitude := by
  have hscale : 10 ^ 28 ≤ Decimal.magnitude ⟨d.negative, d.coefficient * 100, d.exponent⟩ ↔
      10 ^ 26 ≤ d.magnitude := by
    rw [magnitude_mul_hundred]
    constructor
    · intro h
      linarith
    · intro h
      linarith
  rw [Decimal.hundredfold, ← hscale]
  rcases lt_or_ge d.exponent 0 with hneg | hpos
  · have hcoefficient : d.coefficient < 10 ^ 25 := hc.resolve_left (by omega)
    rw [keepDigits_of_lt (by show d.coefficient * 100 < 10 ^ 28; omega)]
    exact round?_eq_none_iff (Or.inr (by show d.coefficient * 100 < 10 ^ 27; omega))
  · rw [← le_magnitude_keepDigits_iff (d := ⟨d.negative, d.coefficient * 100, d.exponent⟩) hpos]
    exact round?_eq_none_iff (Or.inl (exponent_keepDigits_nonneg hpos))

example : (⟨false, 12345, -3⟩ : Decimal).hundredfold.round? = some 1235 := by decide

end Intake.Number
