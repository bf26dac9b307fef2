import Intake.Proofs.Calendar.IsoDate
import Intake.Proofs.Hints.Readable
import Intake.Proofs.Number.Denoted
import Intake.Proofs.Number.IntegerText

/-!
# Amounts

Every spelling of an amount of money is read as the same whole number of cents.

There are three groups.

* Money texts.  `SaysCents` is the texts for an amount, with a dollar sign or without,
  with commas, with zeros in front and with blanks around; `centsOfText_of_saysCents`
  reads them.
* Numbers.  `exists_isRounded_of_cents` says that a number is scaled and rounded, and
  that nothing is lost before the rounding.
* Spellings.  `Spells` is the quantities that say an amount in a unit, and
  `cents_of_spells` is the result.
-/

namespace Intake

open Text Number

/-! ## Money texts -/

namespace Quantity

theorem ofAsciiDigits_eq (s : List Char) :
    ofAsciiDigits s =
      if s.length ≤ maxDigitsRead then .ok (plainValue s) else .error ⟨s.length⟩ := rfl

/-- A text that says so many cents, with its number of digits before the point.
Dollars stand before two places, with commas anywhere among them; plain digits
are cents. -/
inductive SaysCents (a : ℕ) : ℕ → List Char → Prop where
  | dollars {lead mark whole trail : List Char} {zeros : ℕ}
      (hlead : ∀ c ∈ lead, isBlank c = true) (htrail : ∀ c ∈ trail, isBlank c = true)
      (hmark : mark = [] ∨ mark = ['$'])
      (hwhole : whole.filter (· != ',') = List.replicate zeros '0' ++ digits (a / 100)) :
      SaysCents a (zeros + (digits (a / 100)).length)
        (lead ++ (mark ++ (whole ++ '.' :: padded 2 (a % 100))) ++ trail)
  | cents {lead trail : List Char} {zeros : ℕ}
      (hlead : ∀ c ∈ lead, isBlank c = true) (htrail : ∀ c ∈ trail, isBlank c = true) :
      SaysCents a (zeros + (digits a).length)
        (lead ++ (List.replicate zeros '0' ++ digits a) ++ trail)

/-- A dollar sign is taken off. -/
theorem dollarText?_mark {mark body : List Char} (hmark : mark = [] ∨ mark = ['$'])
    (hbody : ∀ rest, body ≠ '$' :: rest) : dollarText? (mark ++ body) = dollarText? body := by
  rcases hmark with rfl | rfl
  · rfl
  · show dollarText? ('$' :: body) = dollarText? body
    rw [dollarText?, dollarText?]
    exact hbody

theorem dollarText?_of_digits {mark whole : List Char} (hmark : mark = [] ∨ mark = ['$'])
    (hne : whole ≠ []) (hwhole : ∀ c ∈ whole, (c.isDigit || c == ',') = true) {a b : Char}
    (ha : a.isDigit = true) (hb : b.isDigit = true) :
    dollarText? (mark ++ (whole ++ ['.', a, b])) = some (whole.filter (· != ','), [a, b]) := by
  have hother : ∀ d : Char, (d.isDigit || d == ',') = false → ∀ c ∈ whole, c ≠ d := by
    rintro d hd c hc rfl
    rw [hwhole c hc] at hd
    cases hd
  have hspan : (whole ++ ['.', a, b]).span (· != '.') = (whole, ['.', a, b]) :=
    span_append_cons (fun c hc => bne_iff_ne.2 (hother '.' rfl c hc)) rfl [a, b]
  have hunmarked : ∀ rest, whole ++ ['.', a, b] ≠ '$' :: rest := by
    intro rest hrest
    have hhead := congrArg List.head? hrest
    rw [List.head?_append_of_ne_nil _ hne] at hhead
    exact hother '$' rfl '$' (List.mem_of_mem_head? hhead) rfl
  have hempty : whole.isEmpty = false := by simpa using hne
  have hall : whole.all (fun c => c.isDigit || c == ',') = true := List.all_eq_true.2 hwhole
  rw [dollarText?_mark hmark hunmarked, dollarText?, hspan]
  · simp only [hempty, hall, ha, hb]
    rfl
  · exact hunmarked

theorem isBlank_of_mem_dollars {mark whole : List Char} (hmark : mark = [] ∨ mark = ['$'])
    (hwhole : ∀ c ∈ whole, (c.isDigit || c == ',') = true) {a b : Char} (ha : a.isDigit = true)
    (hb : b.isDigit = true) : ∀ c ∈ mark ++ (whole ++ ['.', a, b]), isBlank c = false := by
  intro c hc
  rw [List.mem_append, List.mem_append] at hc
  rcases hc with hc | hc | hc
  · rcases hmark with rfl | rfl
    · cases hc
    · rw [List.mem_singleton.1 hc]
      decide
  · by_cases hdigit : c.isDigit = true
    · exact isBlank_of_isDigit hdigit
    · have hcomma : c = ',' := by simpa [hdigit] using hwhole c hc
      rw [hcomma]
      decide
  · simp only [List.mem_cons, List.not_mem_nil, or_false] at hc
    rcases hc with rfl | rfl | rfl
    · decide
    · exact isBlank_of_isDigit ha
    · exact isBlank_of_isDigit hb

theorem dollarText?_of_isPlain {s : List Char} (h : isPlain s = true) : dollarText? s = none := by
  obtain ⟨-, hdigits⟩ := isPlain_iff.1 h
  have hspan : s.span (· != '.') = (s, []) :=
    span_of_forall fun c hc => bne_of_isDigit (hdigits c hc) rfl
  rw [dollarText?, hspan]
  rintro rest rfl
  cases hdigits '$' List.mem_cons_self

/-- Dollars are read when their whole part is not too long; two places never are. -/
theorem centsOfText_of_dollarText? {s whole places : List Char}
    (h : dollarText? (trim s) = some (whole, places)) (hne : whole ≠ [])
    (hplaces : places.length ≤ maxDigitsRead) :
    centsOfText s =
      if whole.length ≤ maxDigitsRead then some (plainValue whole * 100 + plainValue places)
      else none := by
  obtain ⟨c, rest, rfl⟩ := List.exists_cons_of_ne_nil hne
  rw [centsOfText, h]
  simp only [ofAsciiDigits_eq, if_pos hplaces]
  by_cases hlength : (c :: rest).length ≤ maxDigitsRead
  · simp only [if_pos hlength]
  · simp only [if_neg hlength]

/-- Plain digits are read when they are not too many. -/
theorem centsOfText_of_isPlain {s : List Char} (h : isPlain (trim s) = true) :
    centsOfText s =
      if (trim s).length ≤ maxDigitsRead then some (plainValue (trim s)) else none := by
  have hread : (ofAsciiDigits (trim s)).toOption =
      if (trim s).length ≤ maxDigitsRead then some (plainValue (trim s)) else none := by
    rw [ofAsciiDigits_eq]
    split <;> rfl
  rw [centsOfText, dollarText?_of_isPlain h, ← hread]
  exact if_pos h

/-- The texts for an amount are read as it, unless they are too long to be read. -/
theorem centsOfText_of_saysCents {a k : ℕ} {s : List Char} (h : SaysCents a k s) :
    centsOfText s = if k ≤ maxDigitsRead then some a else none := by
  cases h with
  | @dollars lead mark whole trail zeros hlead htrail hmark hwhole =>
    have hplain : isPlain (whole.filter (· != ',')) = true := by
      rw [hwhole]
      exact isPlain_zeros_append zeros (isPlain_digits _)
    obtain ⟨hne, hdigits⟩ := isPlain_iff.1 hplain
    have hchars : ∀ c ∈ whole, (c.isDigit || c == ',') = true := by
      intro c hc
      by_cases hcomma : c = ','
      · rw [hcomma]
        rfl
      · rw [hdigits c (List.mem_filter.2 ⟨hc, bne_iff_ne.2 hcomma⟩)]
        rfl
    have hnonempty : whole ≠ [] := by
      rintro rfl
      exact hne rfl
    obtain ⟨x, y, hplaces⟩ : ∃ x y, padded 2 (a % 100) = [x, y] :=
      ⟨_, _, Calendar.padded_two (Nat.mod_lt a (by decide))⟩
    have hxy := (isPlain_iff.1 (isPlain_padded 2 (a % 100))).2
    have hvalue := plainValue_padded 2 (a % 100)
    rw [hplaces] at hxy hvalue
    rw [hplaces]
    have hx : x.isDigit = true := hxy x List.mem_cons_self
    have hy : y.isDigit = true := hxy y (List.mem_cons_of_mem _ List.mem_cons_self)
    have htrim : trim (lead ++ (mark ++ (whole ++ ['.', x, y])) ++ trail) = _ :=
      stripWhere_between hlead (isBlank_of_mem_dollars hmark hchars hx hy) htrail
    have hread := dollarText?_of_digits hmark hnonempty hchars hx hy
    rw [← htrim] at hread
    have hlength : (whole.filter (· != ',')).length = zeros + (digits (a / 100)).length := by
      rw [hwhole, List.length_append, List.length_replicate]
    have hsum : plainValue (whole.filter (· != ',')) * 100 + plainValue [x, y] = a := by
      rw [hvalue, hwhole, plainValue_zeros_append, plainValue_digits]
      omega
    rw [centsOfText_of_dollarText? hread hne (show 2 ≤ maxDigitsRead by decide), hlength, hsum]
  | @cents lead trail zeros hlead htrail =>
    have hplain : isPlain (List.replicate zeros '0' ++ digits a) = true :=
      isPlain_zeros_append zeros (isPlain_digits a)
    obtain ⟨-, hdigits⟩ := isPlain_iff.1 hplain
    have htrim : trim (lead ++ (List.replicate zeros '0' ++ digits a) ++ trail) = _ :=
      stripWhere_between hlead (fun c hc => isBlank_of_isDigit (hdigits c hc)) htrail
    rw [← htrim] at hplain
    rw [centsOfText_of_isPlain hplain, htrim, plainValue_zeros_append, plainValue_digits,
      List.length_append, List.length_replicate]

example : centsOfText " $0,1,200.05 ".toList = some 120005 := by decide +kernel

/-! ## Numbers -/

/-- How many cents the unit is worth. -/
def scale (unit : Option (List Char)) : ℚ := if isDollarUnit unit then 100 else 1

theorem centsBound_mul_scale (unit : Option (List Char)) (v : ℚ) :
    |v| < centsBound unit ↔ |scale unit * v| < 10 ^ 28 := by
  rw [centsBound, scale, abs_mul]
  split
  · rw [abs_of_pos (show (0 : ℚ) < 100 by norm_num)]
    constructor <;> intro h <;> linarith
  · rw [abs_one, one_mul]

/-- A number is an amount unless it is too large. -/
theorem exists_cents_iff {q : Quantity} {d : Decimal} (hd : q.decimal? = some d)
    (unit : Option (List Char)) :
    (∃ c, q.cents unit = .ok c) ↔ |scale unit * d.value| < 10 ^ 28 := by
  rw [← centsBound_mul_scale, abs_value, ← not_le, ← reaches_iff hd,
    ← cents_eq_error_iff q unit .tooManyDigits]
  cases q.cents unit with
  | ok c => exact iff_of_true ⟨c, rfl⟩ nofun
  | error e =>
    cases e
    exact iff_of_false (fun h => nomatch h.choose_spec) fun h => h rfl

theorem cents_eq_centsOfDecimal {q : Quantity} {d : Decimal} (hd : q.decimal? = some d)
    (unit : Option (List Char)) : q.cents unit = centsOfDecimal d unit := by
  cases q with
  | absent => cases hd
  | text s => cases hd
  | int n =>
    cases hd
    rfl
  | double x =>
    have hx : shortest? x = some d := hd
    rw [cents, hx]

/-- An amount is the scaled number, rounded once.  Between the two no digit is lost. -/
theorem exists_isRounded_of_cents {q : Quantity} {d : Decimal} (hd : q.decimal? = some d)
    {unit : Option (List Char)} {c : Option ℤ} (h : q.cents unit = .ok c) :
    ∃ m, IsRounded (scale unit * d.value) m ∧ c = nonZero m := by
  have hdigits := exponent_nonneg_or_coefficient_le hd
  rw [cents_eq_centsOfDecimal hd, centsOfDecimal] at h
  split at h
  · rename_i m hround
    refine ⟨m, ?_, (Except.ok.inj h).symm⟩
    rw [scale]
    by_cases hunit : isDollarUnit unit = true
    · rw [if_pos hunit] at hround ⊢
      have hm := (round_eq_ok_iff _ _).1 hround
      rw [← value_hundredfold (hdigits.imp_right fun hc => by omega) hm]
      exact isRounded_of_round? hm
    · rw [if_neg hunit] at hround ⊢
      rw [one_mul]
      exact isRounded_of_round? ((round_eq_ok_iff _ _).1 hround)
  · cases h

/-- A number that is a whole amount in its unit is read as it. -/
theorem cents_of_value {q : Quantity} {d : Decimal} (hd : q.decimal? = some d)
    {unit : Option (List Char)} {a : ℕ} (hpos : 0 < a) (hlt : a < 10 ^ 28)
    (hvalue : scale unit * d.value = a) : q.cents unit = .ok (some (a : ℤ)) := by
  have hbound : |scale unit * d.value| < 10 ^ 28 := by
    rw [hvalue, Nat.abs_cast]
    exact_mod_cast hlt
  obtain ⟨c, hc⟩ := (exists_cents_iff hd unit).2 hbound
  obtain ⟨m, hm, rfl⟩ := exists_isRounded_of_cents hd hc
  have hma : m = a := hm.unique (.of_eq (by rw [hvalue]; exact_mod_cast rfl))
  rw [hc, hma, nonZero, if_neg (by omega)]

/-! ## Spellings -/

/-- A number and the text it is written as.  An infinity is no number. -/
inductive IsWritten : Quantity → List Char → Prop where
  | int (n : ℤ) : IsWritten (.int n) (intText n).toList
  | double {x : Float} (h : (Binary.ofFloat? x).isSome = true) :
      IsWritten (.double x) (shortestText x).toList

theorem IsWritten.exists_decimal {q : Quantity} {s : List Char} (h : q.IsWritten s) :
    ∃ d, q.decimal? = some d ∧ denoted? s = some d.value := by
  cases h with
  | int n =>
    refine ⟨.ofInt n, rfl, ?_⟩
    rw [denoted?_intText, value_ofInt]
  | @double x hx =>
    obtain ⟨b, hb⟩ := Option.isSome_iff_exists.1 hx
    have hd : shortest? x = some b.shortest := by rw [shortest?, hb]; rfl
    exact ⟨b.shortest, hd, denoted?_shortestText hd⟩

/-- The quantities that say so many cents in a unit. -/
inductive Spells (a : ℕ) (unit : Option (List Char)) : Quantity → Prop where
  | text {k : ℕ} {s : List Char} (h : SaysCents a k s) (hk : k ≤ maxDigitsRead) :
      Spells a unit (.text s)
  | cents (hunit : isDollarUnit unit = false) : Spells a unit (.int a)
  | dollars (hunit : isDollarUnit unit = true) (hwhole : a % 100 = 0) :
      Spells a unit (.int (a / 100 : ℕ))
  | double {x : Float} (hunit : isDollarUnit unit = true)
      (hx : denoted? (shortestText x).toList = some (a / 100 : ℚ)) : Spells a unit (.double x)

theorem cents_of_spells {a : ℕ} (hpos : 0 < a) (hlt : a < 10 ^ 28) {unit : Option (List Char)}
    {q : Quantity} (h : Spells a unit q) : q.cents unit = .ok (some (a : ℤ)) := by
  cases h with
  | text h hk =>
    have hne : (a : ℤ) ≠ 0 := by omega
    rw [cents, centsOfText_of_saysCents h, if_pos hk, Option.bind_some, nonZero, if_neg hne]
  | cents hunit =>
    refine cents_of_value rfl hpos hlt ?_
    rw [scale, hunit, value_ofInt]
    simp
  | dollars hunit hwhole =>
    refine cents_of_value rfl hpos hlt ?_
    have hdollars : 100 * (a / 100) = a := by omega
    rw [scale, hunit, value_ofInt]
    exact_mod_cast hdollars
  | @double x hunit hx =>
    cases hd : shortest? x with
    | none =>
      have htext : (shortestText x).toList = nonFiniteText x := by
        rw [shortestText, hd, String.toList_ofList]
      rw [htext, denoted?_nonFiniteText] at hx
      cases hx
    | some d =>
      rw [denoted?_shortestText hd, Option.some.injEq] at hx
      refine cents_of_value (q := .double x) hd hpos hlt ?_
      rw [scale, hunit, hx]
      exact mul_div_cancel₀ _ (by norm_num)

/-- Every spelling of an amount below `10 ^ 28` cents is read as it, and a text whatever
the unit is.  A number that is not too large is read as what its text denotes, in cents
and rounded once; zero is no amount. -/
theorem cents_exact (unit : Option (List Char)) :
    (∀ (a : ℕ) (q : Quantity), 0 < a → a < 10 ^ 28 → Spells a unit q →
      q.cents unit = .ok (some (a : ℤ))) ∧
      (∀ s unit', cents unit (.text s) = cents unit' (.text s)) ∧
      ∀ (q : Quantity) (s : List Char), q.IsWritten s → ∃ v, denoted? s = some v ∧
        ((∃ c, q.cents unit = .ok c) ↔ |scale unit * v| < 10 ^ 28) ∧
        ∀ c, q.cents unit = .ok c →
          ∃ m, IsRounded (scale unit * v) m ∧ c = if m = 0 then none else some m := by
  refine ⟨fun a q hpos hlt h => cents_of_spells hpos hlt h, fun s unit' => rfl, ?_⟩
  intro q s hs
  obtain ⟨d, hd, hvalue⟩ := hs.exists_decimal
  exact ⟨d.value, hvalue, exists_cents_iff hd unit, fun c hc => exists_isRounded_of_cents hd hc⟩

/-- Dollars as a double, and half a cent below zero. -/
theorem cents_exact_usd :
    (Spells 1250 (some ['u', 's', 'd']) (.double 12.5) ∧
      cents (some ['u', 's', 'd']) (.double 12.5) = .ok (some 1250)) ∧
    (IsWritten (.double (-0.005)) (shortestText (-0.005)).toList ∧
      ∃ v, denoted? (shortestText (-0.005)).toList = some v ∧
        ((∃ c, cents (some ['u', 's', 'd']) (.double (-0.005)) = .ok c) ↔
          |scale (some ['u', 's', 'd']) * v| < 10 ^ 28) ∧
        ∀ c, cents (some ['u', 's', 'd']) (.double (-0.005)) = .ok c →
          ∃ m, IsRounded (scale (some ['u', 's', 'd']) * v) m ∧
            c = if m = 0 then none else some m) := by
  have hshortest : shortest? 12.5 = some ⟨false, 125, -1⟩ := by decide +kernel
  have hdenoted : denoted? (shortestText 12.5).toList = some ((1250 : ℕ) / 100 : ℚ) := by
    rw [denoted?_shortestText hshortest]
    norm_num [Decimal.value, Decimal.magnitude]
  have hspells : Spells 1250 (some ['u', 's', 'd']) (.double 12.5) := .double (by decide) hdenoted
  have hwritten : IsWritten (.double (-0.005)) (shortestText (-0.005)).toList :=
    .double (by decide +kernel)
  obtain ⟨hexact, -, hrounded⟩ := cents_exact (some ['u', 's', 'd'])
  exact ⟨⟨hspells, hexact 1250 _ (by norm_num) (by norm_num) hspells⟩,
    hwritten, hrounded _ _ hwritten⟩

/-- One dollar with more zeros in front than can be read. -/
def overlongText : List Char := '$' :: (List.replicate 4300 '0' ++ ['1', '.', '0', '0'])

/-- A whole part with too many digits is no amount, though most of them are zeros. -/
theorem cents_overlongText :
    SaysCents 100 4301 overlongText ∧ cents none (.text overlongText) = .ok none := by
  have hwhole : (List.replicate 4300 '0' ++ ['1']).filter (· != ',') =
      List.replicate 4300 '0' ++ digits (100 / 100) := by
    rw [List.filter_eq_self.2]
    · rfl
    · intro c hc
      rcases List.mem_append.1 hc with hc | hc
      · rw [List.eq_of_mem_replicate hc]
        rfl
      · rw [List.mem_singleton.1 hc]
        rfl
  have htext : overlongText = [] ++ (['$'] ++ ((List.replicate 4300 '0' ++ ['1']) ++
      '.' :: padded 2 (100 % 100))) ++ [] := by
    rw [List.append_nil, List.append_assoc]
    rfl
  have hspelled : SaysCents 100 4301 overlongText := by
    rw [htext]
    exact .dollars (List.forall_mem_nil _) (List.forall_mem_nil _) (Or.inr rfl) hwhole
  refine ⟨hspelled, ?_⟩
  rw [cents, centsOfText_of_saysCents hspelled, if_neg (by decide)]
  rfl

end Quantity
end Intake
