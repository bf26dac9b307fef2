import Intake.Proofs.Number.Digits
import Intake.Proofs.Number.Rounding
import Mathlib.Data.List.DropRight

/-!
# Denoted numbers

What a written number says: digits, perhaps with a point among them, perhaps with
a power of ten behind them, and perhaps with a minus sign in front.

There are four groups.

* Digit strings.  `plainValue` is the number of a digit string, and zeros at its ends
  are told apart from it.
* Denoted numbers.  `denoted?` takes a written number apart at its sign, its
  exponent and its point.
* Forms.  `numberText` writes digits with a point, with zeros or with an exponent, and
  `unsigned?_numberText` says that they stand for the same number in each form.
* What is written.  `denoted?_intText` and `denoted?_shortestText` say that a whole
  number and a double are written as what they are.
-/

namespace Intake.Number

open Text

/-! ## Digit strings -/

/-- The number of a digit string. -/
def plainValue (s : List Char) : Nat := ofDigits (s.map fun c => c.toNat - '0'.toNat)

/-- Whether there is a digit and nothing but digits. -/
def isPlain (s : List Char) : Bool := ! s.isEmpty && s.all Char.isDigit

theorem isPlain_iff {s : List Char} : isPlain s = true ↔ s ≠ [] ∧ ∀ c ∈ s, c.isDigit = true := by
  simp [isPlain]

theorem isPlain_digits (n : Nat) : isPlain (digits n) = true :=
  isPlain_iff.2 ⟨digits_ne_nil n, fun _ => isDigit_of_mem_digits⟩

theorem plainValue_digits (n : Nat) : plainValue (digits n) = n := ofDigits_digits n

theorem foldl_ofDigits (ds : List Nat) (n : Nat) :
    ds.foldl (fun n d => n * 10 + d) n = n * 10 ^ ds.length + ofDigits ds := by
  induction ds generalizing n with
  | nil => simp [ofDigits]
  | cons d ds ih =>
    rw [ofDigits, List.foldl_cons, List.foldl_cons, ih, ih (0 * 10 + d), List.length_cons]
    ring

theorem plainValue_append (s t : List Char) :
    plainValue (s ++ t) = plainValue s * 10 ^ t.length + plainValue t := by
  rw [plainValue, List.map_append, ofDigits, List.foldl_append, foldl_ofDigits, List.length_map]
  rfl

theorem plainValue_zeros (k : Nat) : plainValue (List.replicate k '0') = 0 := by
  induction k with
  | zero => rfl
  | succ k ih =>
    rw [List.replicate_succ', plainValue_append, ih]
    rfl

/-- Zeros in front do not count. -/
theorem plainValue_zeros_append (k : Nat) (s : List Char) :
    plainValue (List.replicate k '0' ++ s) = plainValue s := by
  rw [plainValue_append, plainValue_zeros, Nat.zero_mul, Nat.zero_add]

/-- Every zero at the end is a factor of ten. -/
theorem plainValue_append_zeros (s : List Char) (k : Nat) :
    plainValue (s ++ List.replicate k '0') = plainValue s * 10 ^ k := by
  rw [plainValue_append, plainValue_zeros, List.length_replicate, Nat.add_zero]

theorem eq_dropZeros_append (s : List Char) :
    ∃ k, s = dropZeros s ++ List.replicate k '0' := by
  have hzeros : ∀ c ∈ s.rtakeWhile (· == '0'), c = '0' := by
    intro c hc
    have hzero := List.mem_rtakeWhile_imp hc
    exact beq_iff_eq.1 hzero
  refine ⟨(s.rtakeWhile (· == '0')).length, ?_⟩
  rw [← List.eq_replicate_of_mem hzeros]
  exact List.rdropWhile_append_rtakeWhile.symm

theorem isPlain_zeros_append (k : Nat) {s : List Char} (h : isPlain s = true) :
    isPlain (List.replicate k '0' ++ s) = true := by
  obtain ⟨hne, hdigits⟩ := isPlain_iff.1 h
  refine isPlain_iff.2 ⟨fun hnil => hne (List.append_eq_nil_iff.1 hnil).2, fun c hc => ?_⟩
  rcases List.mem_append.1 hc with hc | hc
  · rw [List.eq_of_mem_replicate hc]
    rfl
  · exact hdigits c hc

theorem isPlain_append_zeros {s : List Char} (h : isPlain s = true) (k : Nat) :
    isPlain (s ++ List.replicate k '0') = true := by
  obtain ⟨hne, hdigits⟩ := isPlain_iff.1 h
  refine isPlain_iff.2 ⟨fun hnil => hne (List.append_eq_nil_iff.1 hnil).1, fun c hc => ?_⟩
  rcases List.mem_append.1 hc with hc | hc
  · exact hdigits c hc
  · rw [List.eq_of_mem_replicate hc]
    rfl

theorem isPlain_padded (width n : Nat) : isPlain (padded width n) = true :=
  isPlain_zeros_append _ (isPlain_digits n)

theorem plainValue_padded (width n : Nat) : plainValue (padded width n) = n := by
  rw [padded, plainValue_zeros_append, plainValue_digits]

/-! ## Denoted numbers -/

/-- The number of digits that may have a point among them. -/
def mantissa? (s : List Char) : Option ℚ :=
  match s.span (· != '.') with
  | (whole, []) => if isPlain whole then some (plainValue whole : ℚ) else none
  | (whole, _ :: places) =>
    if isPlain whole && isPlain places then
      some ((plainValue (whole ++ places) : ℚ) / 10 ^ places.length)
    else none

/-- A signed exponent. -/
def exponent? : List Char → Option ℤ
  | '+' :: ds => if isPlain ds then some (plainValue ds : ℤ) else none
  | '-' :: ds => if isPlain ds then some (-(plainValue ds : ℤ)) else none
  | _ => none

/-- The number of digits with or without a power of ten. -/
def unsigned? (s : List Char) : Option ℚ :=
  match s.span (· != 'e') with
  | (front, []) => mantissa? front
  | (front, _ :: power) => do
    let m ← mantissa? front
    let e ← exponent? power
    return m * 10 ^ e

/-- The number that a text denotes. -/
def denoted? (s : List Char) : Option ℚ :=
  match s with
  | '-' :: rest => (unsigned? rest).map fun v => -v
  | s => unsigned? s

theorem span_of_forall {α : Type} {p : α → Bool} {s : List α} (h : ∀ a ∈ s, p a = true) :
    s.span p = (s, []) := by
  rw [List.span_eq_takeWhile_dropWhile, List.takeWhile_eq_self_iff.2 h,
    List.dropWhile_eq_nil_iff.2 h]

theorem span_append_cons {α : Type} {p : α → Bool} {s : List α} (h : ∀ a ∈ s, p a = true) {b : α}
    (hb : p b = false) (t : List α) : (s ++ b :: t).span p = (s, b :: t) := by
  rw [List.span_eq_takeWhile_dropWhile, List.takeWhile_append_of_pos h,
    List.dropWhile_append_of_pos h, List.takeWhile_cons_of_neg (by simp [hb]),
    List.dropWhile_cons_of_neg (by simp [hb]), List.append_nil]

theorem bne_of_isDigit {c d : Char} (h : c.isDigit = true) (hd : d.isDigit = false) :
    (c != d) = true := by
  rw [bne_iff_ne]
  rintro rfl
  rw [h] at hd
  cases hd

theorem mantissa?_plain {s : List Char} (h : isPlain s = true) :
    mantissa? s = some (plainValue s : ℚ) := by
  have hspan : s.span (· != '.') = (s, []) :=
    span_of_forall fun c hc => bne_of_isDigit ((isPlain_iff.1 h).2 c hc) rfl
  simp only [mantissa?, hspan, h, if_true]

theorem mantissa?_point {whole places : List Char} (hwhole : isPlain whole = true)
    (hplaces : isPlain places = true) :
    mantissa? (whole ++ '.' :: places) =
      some ((plainValue (whole ++ places) : ℚ) / 10 ^ places.length) := by
  have hspan : (whole ++ '.' :: places).span (· != '.') = (whole, '.' :: places) :=
    span_append_cons (fun c hc => bne_of_isDigit ((isPlain_iff.1 hwhole).2 c hc) rfl) rfl places
  simp only [mantissa?, hspan, hwhole, hplaces, Bool.and_self, if_true]

theorem unsigned?_of_forall {s : List Char} (h : ∀ c ∈ s, (c != 'e') = true) :
    unsigned? s = mantissa? s := by
  simp only [unsigned?, span_of_forall h]

theorem span_cons_of_pos {α : Type} {p : α → Bool} {a : α} (h : p a = true) (s : List α) :
    (a :: s).span p = (a :: s.takeWhile p, s.dropWhile p) := by
  rw [List.span_eq_takeWhile_dropWhile, List.takeWhile_cons_of_pos h,
    List.dropWhile_cons_of_pos h]

/-- A minus sign is no digit. -/
theorem mantissa?_minus (s : List Char) : mantissa? ('-' :: s) = none := by
  have hspan := span_cons_of_pos (p := (· != '.')) (show ('-' != '.') = true from rfl) s
  simp only [mantissa?, hspan]
  cases s.dropWhile (· != '.') <;> rfl

theorem unsigned?_minus (s : List Char) : unsigned? ('-' :: s) = none := by
  have hspan := span_cons_of_pos (p := (· != 'e')) (show ('-' != 'e') = true from rfl) s
  have hfront := mantissa?_minus (s.takeWhile (· != 'e'))
  simp only [unsigned?, hspan]
  cases s.dropWhile (· != 'e') with
  | nil => exact hfront
  | cons c power =>
    simp only [hfront]
    rfl

theorem denoted?_of_unsigned? {s : List Char} {v : ℚ} (h : unsigned? s = some v) :
    denoted? s = some v := by
  unfold denoted?
  split
  · rw [unsigned?_minus] at h
    cases h
  · exact h

theorem denoted?_signText_append (negative : Bool) {s : List Char} {v : ℚ}
    (h : unsigned? s = some v) :
    denoted? (signText negative ++ s) = some (if negative then -v else v) := by
  cases negative with
  | false => exact denoted?_of_unsigned? h
  | true =>
    show (unsigned? s).map _ = _
    rw [h]
    rfl

/-! ## Forms -/

theorem exponent?_exponentText (e : ℤ) : ∃ power, exponentText e = 'e' :: power ∧
    exponent? power = some e := by
  have hplain := isPlain_padded 2 e.natAbs
  have hvalue := plainValue_padded 2 e.natAbs
  refine ⟨_, rfl, ?_⟩
  by_cases he : e < 0
  · have habs : -(e.natAbs : ℤ) = e := by omega
    rw [if_pos he, exponent?, if_pos hplain, hvalue, habs]
  · have habs : (e.natAbs : ℤ) = e := by omega
    rw [if_neg he, exponent?, if_pos hplain, hvalue, habs]

theorem unsigned?_append_exponentText {s : List Char} (h : ∀ c ∈ s, (c != 'e') = true) {m : ℚ}
    (hm : mantissa? s = some m) (e : ℤ) : unsigned? (s ++ exponentText e) = some (m * 10 ^ e) := by
  obtain ⟨power, hpower, he⟩ := exponent?_exponentText e
  rw [hpower]
  simp only [unsigned?, span_append_cons h (show ('e' != 'e') = false from rfl), hm, he]
  rfl

/-- The number of digits whose first one stands at `10 ^ lead`. -/
def leadValue (ds : List Char) (lead : ℤ) : ℚ := plainValue ds * 10 ^ (lead + 1 - ds.length)

/-- Digits whose first one stands at `10 ^ lead`, in the form that a shortest
decimal is written in. -/
def numberText (ds : List Char) (lead : ℤ) : List Char :=
  if -4 ≤ lead && lead < 16 then
    let text := positional ds lead
    if text.contains '.' then text else text ++ ['.', '0']
  else mantissaText ds ++ exponentText lead

theorem leadValue_of_nonneg {ds : List Char} {lead : ℤ} {k : ℕ} (h : lead + 1 - ds.length = k) :
    leadValue ds lead = plainValue ds * 10 ^ k := by
  rw [leadValue, h, zpow_natCast]

theorem leadValue_of_nonpos {ds : List Char} {lead : ℤ} {k : ℕ} (h : lead + 1 - ds.length = -k) :
    leadValue ds lead = plainValue ds / 10 ^ k := by
  rw [leadValue, h, zpow_neg, zpow_natCast, div_eq_mul_inv]

/-- Digits and a point hold no exponent mark. -/
theorem bne_of_mem_point {whole places : List Char} (hwhole : isPlain whole = true)
    (hplaces : isPlain places = true) : ∀ c ∈ whole ++ '.' :: places, (c != 'e') = true := by
  intro c hc
  rw [List.mem_append, List.mem_cons] at hc
  rcases hc with hc | rfl | hc
  · exact bne_of_isDigit ((isPlain_iff.1 hwhole).2 c hc) rfl
  · rfl
  · exact bne_of_isDigit ((isPlain_iff.1 hplaces).2 c hc) rfl

theorem unsigned?_point {whole places : List Char} (hwhole : isPlain whole = true)
    (hplaces : isPlain places = true) :
    unsigned? (whole ++ '.' :: places) =
      some ((plainValue (whole ++ places) : ℚ) / 10 ^ places.length) := by
  rw [unsigned?_of_forall (bne_of_mem_point hwhole hplaces), mantissa?_point hwhole hplaces]

/-- Below one the digits follow the zeros behind the point. -/
theorem unsigned?_positional_of_neg {ds : List Char} (h : isPlain ds = true) {lead : ℤ}
    (hlead : lead < 0) : unsigned? (positional ds lead) = some (leadValue ds lead) := by
  have hexponent : lead + 1 - ds.length =
      -((List.replicate (lead.natAbs - 1) '0' ++ ds).length : ℕ) := by
    rw [List.length_append, List.length_replicate]
    omega
  have hzero : isPlain ['0'] = true := rfl
  have hpoint := unsigned?_point hzero (isPlain_zeros_append (lead.natAbs - 1) h)
  rw [leadValue_of_nonpos hexponent, positional, if_pos hlead]
  rw [plainValue_append ['0'], plainValue_zeros_append] at hpoint
  simpa [plainValue, ofDigits] using hpoint

/-- Digits that do not reach the point are filled up with zeros. -/
theorem unsigned?_positional_of_length_le {ds : List Char} (h : isPlain ds = true) {lead : ℤ}
    (hlead : 0 ≤ lead) (hlength : (ds.length : ℤ) ≤ lead + 1) :
    '.' ∉ positional ds lead ∧
      unsigned? (positional ds lead ++ ['.', '0']) = some (leadValue ds lead) := by
  have hpositional :
      positional ds lead = ds ++ List.replicate (lead.toNat + 1 - ds.length) '0' := by
    have hdrop : ds.drop (lead.toNat + 1) = [] := List.drop_eq_nil_iff.2 (by omega)
    have htake : ds.take (lead.toNat + 1) = ds := List.take_of_length_le (by omega)
    simp only [positional, if_neg (not_lt.2 hlead), hdrop, htake]
  have hplain := isPlain_append_zeros h (lead.toNat + 1 - ds.length)
  rw [hpositional]
  constructor
  · intro hpoint
    cases (isPlain_iff.1 hplain).2 _ hpoint
  · have hexponent : lead + 1 - ds.length = (lead.toNat + 1 - ds.length : ℕ) := by omega
    rw [unsigned?_point hplain (show isPlain ['0'] = true from rfl),
      show ['0'] = List.replicate 1 '0' from rfl, plainValue_append_zeros,
      plainValue_append_zeros, leadValue_of_nonneg hexponent, List.length_replicate]
    push_cast
    rw [pow_one, mul_div_cancel_right₀ _ (by norm_num)]

/-- Digits on both sides of the point. -/
theorem unsigned?_positional_of_lt_length {ds : List Char} (h : isPlain ds = true) {lead : ℤ}
    (hlead : 0 ≤ lead) (hlength : lead + 1 < ds.length) :
    '.' ∈ positional ds lead ∧ unsigned? (positional ds lead) = some (leadValue ds lead) := by
  obtain ⟨-, hdigits⟩ := isPlain_iff.1 h
  have htake : isPlain (ds.take (lead.toNat + 1)) = true := by
    refine isPlain_iff.2 ⟨fun hnil => ?_, fun c hc => hdigits c (List.mem_of_mem_take hc)⟩
    rcases List.take_eq_nil_iff.1 hnil with hzero | hnil
    · omega
    · rw [hnil, List.length_nil] at hlength
      omega
  have hdrop : isPlain (ds.drop (lead.toNat + 1)) = true := by
    refine isPlain_iff.2 ⟨fun hnil => ?_, fun c hc => hdigits c (List.mem_of_mem_drop hc)⟩
    have hle := List.drop_eq_nil_iff.1 hnil
    omega
  have hpositional : positional ds lead =
      ds.take (lead.toNat + 1) ++ '.' :: ds.drop (lead.toNat + 1) := by
    have hzeros : lead.toNat + 1 - ds.length = 0 := by omega
    rw [positional, if_neg (not_lt.2 hlead)]
    simp only [hzeros, List.replicate_zero, List.append_nil]
    split
    · rename_i hnil
      rw [hnil] at hdrop
      cases hdrop
    · rfl
  have hexponent : lead + 1 - ds.length = -((ds.drop (lead.toNat + 1)).length : ℕ) := by
    rw [List.length_drop]
    omega
  rw [hpositional]
  refine ⟨by simp, ?_⟩
  rw [unsigned?_point htake hdrop, List.take_append_drop, leadValue_of_nonpos hexponent]

/-- One digit before the point and the others behind it. -/
theorem unsigned?_scientific {ds : List Char} (h : isPlain ds = true) (lead : ℤ) :
    unsigned? (mantissaText ds ++ exponentText lead) = some (leadValue ds lead) := by
  obtain ⟨hne, hdigits⟩ := isPlain_iff.1 h
  have hmark : ∀ c ∈ ds, (c != 'e') = true := fun c hc => bne_of_isDigit (hdigits c hc) rfl
  cases ds with
  | nil => exact absurd rfl hne
  | cons d rest =>
    have hshift : leadValue (d :: rest) lead =
        plainValue (d :: rest) / 10 ^ rest.length * 10 ^ lead := by
      have hexponent : lead + 1 - ((d :: rest).length : ℤ) = lead - rest.length := by
        rw [List.length_cons]
        push_cast
        ring
      rw [leadValue, hexponent, zpow_sub₀ (by norm_num), zpow_natCast]
      ring
    rw [hshift]
    cases rest with
    | nil =>
      refine unsigned?_append_exponentText hmark ?_ lead
      show mantissa? [d] = _
      rw [mantissa?_plain h, List.length_nil, pow_zero, div_one]
    | cons d' rest =>
      have hhead : isPlain [d] = true :=
        isPlain_iff.2 ⟨List.cons_ne_nil _ _, by simpa using hdigits d List.mem_cons_self⟩
      have hrest : isPlain (d' :: rest) = true :=
        isPlain_iff.2 ⟨List.cons_ne_nil _ _, fun c hc => hdigits c (List.mem_cons_of_mem _ hc)⟩
      exact unsigned?_append_exponentText (bne_of_mem_point hhead hrest)
        (mantissa?_point hhead hrest) lead

/-- In every form the digits stand for the same number. -/
theorem unsigned?_numberText {ds : List Char} (h : isPlain ds = true) (lead : ℤ) :
    unsigned? (numberText ds lead) = some (leadValue ds lead) := by
  rw [numberText]
  split
  · by_cases hneg : lead < 0
    · have hpoint : (positional ds lead).contains '.' = true := by
        rw [positional, if_pos hneg]
        rfl
      simp only [hpoint, if_true]
      exact unsigned?_positional_of_neg h hneg
    · rcases le_or_gt (ds.length : ℤ) (lead + 1) with hle | hlt
      · obtain ⟨hpoint, hvalue⟩ := unsigned?_positional_of_length_le h (not_lt.1 hneg) hle
        simpa [hpoint] using hvalue
      · obtain ⟨hpoint, hvalue⟩ := unsigned?_positional_of_lt_length h (not_lt.1 hneg) hlt
        simpa [hpoint] using hvalue
  · exact unsigned?_scientific h lead

/-! ## What is written -/

/-- A whole number is written as what it is. -/
theorem denoted?_intText (n : ℤ) : denoted? (intText n).toList = some (n : ℚ) := by
  have hdigits : unsigned? (digits n.natAbs) = some (n.natAbs : ℚ) := by
    have hplain := isPlain_digits n.natAbs
    rw [unsigned?_of_forall fun c hc => bne_of_isDigit (isDigit_of_mem_digits hc) rfl,
      mantissa?_plain hplain, plainValue_digits]
  have htext : (intText n).toList = signText (decide (n < 0)) ++ digits n.natAbs := by
    rw [intText, String.toList_ofList]
    by_cases hn : n < 0 <;> simp [hn, signText]
  rw [htext, denoted?_signText_append _ hdigits]
  rw [← value_ofInt n, Decimal.value, magnitude_ofInt]
  rfl

/-- Without the zeros at its end a coefficient stands for the same decimal. -/
theorem leadValue_dropZeros {c : ℕ} (hc : c ≠ 0) (e : ℤ) :
    isPlain (dropZeros (digits c)) = true ∧
      leadValue (dropZeros (digits c)) (e + (digits c).length - 1) = c * 10 ^ e := by
  obtain ⟨k, hk⟩ := eq_dropZeros_append (digits c)
  have hvalue : c = plainValue (dropZeros (digits c)) * 10 ^ k := by
    rw [← plainValue_append_zeros, ← hk, plainValue_digits]
  have hlength : (digits c).length = (dropZeros (digits c)).length + k := by
    have hsplit := congrArg List.length hk
    rwa [List.length_append, List.length_replicate] at hsplit
  constructor
  · refine isPlain_iff.2 ⟨fun hnil => hc ?_, fun d hd => isDigit_of_mem_digits (n := c) ?_⟩
    · rw [hvalue, hnil]
      exact Nat.zero_mul _
    · rw [hk]
      exact List.mem_append_left _ hd
  · have hexponent :
        e + ((digits c).length : ℤ) - 1 + 1 - (dropZeros (digits c)).length = k + e := by
      omega
    have hvalueQ : (c : ℚ) = plainValue (dropZeros (digits c)) * 10 ^ k := by exact_mod_cast hvalue
    rw [leadValue, hexponent, zpow_add₀ (by norm_num), zpow_natCast, ← mul_assoc, ← hvalueQ]

theorem denoted?_nonFiniteText (x : Float) : denoted? (nonFiniteText x) = none := by
  rw [nonFiniteText]
  split
  · rfl
  · split <;> rfl

/-- The number that a double is written as is its shortest decimal. -/
theorem denoted?_shortestText {x : Float} {d : Decimal} (h : shortest? x = some d) :
    denoted? (shortestText x).toList = some d.value := by
  have htext : (shortestText x).toList = signText d.negative ++
      numberText (if d.coefficient = 0 then ['0'] else dropZeros (digits d.coefficient))
        (if d.coefficient = 0 then 0 else d.exponent + (digits d.coefficient).length - 1) := by
    rw [shortestText, String.toList_ofList, h]
    rfl
  have hbody : unsigned? (numberText
      (if d.coefficient = 0 then ['0'] else dropZeros (digits d.coefficient))
      (if d.coefficient = 0 then 0 else d.exponent + (digits d.coefficient).length - 1)) =
        some d.magnitude := by
    by_cases hc : d.coefficient = 0
    · rw [if_pos hc, if_pos hc, unsigned?_numberText rfl, Decimal.magnitude, hc]
      simp [leadValue, plainValue, ofDigits]
    · obtain ⟨hplain, hvalue⟩ := leadValue_dropZeros hc d.exponent
      rw [if_neg hc, if_neg hc, unsigned?_numberText hplain, hvalue]
      rfl
  rw [htext, denoted?_signText_append _ hbody]
  rfl

end Intake.Number
