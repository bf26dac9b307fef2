import Intake.Proofs.Number.Denoted
import Intake.Proofs.Text.Stripped

/-!
# Integer texts

Which texts are read as a whole number, and as which one.

There are three groups.

* Characters.  Digits of any script and the marks between them are no blanks.
* Numerals.  `Numeral` is the digits with single underscores between them, and
  `digitGroups?_eq_some_iff` says that these are what is read.
* Whole numbers.  `IntegerText` adds a sign in front and blanks around, and
  `readInt?_trim_eq_some_iff` is the result.
-/

namespace Intake.Number

open Text

/-! ## Characters -/

theorem isBlank_of_digitValue? {c : Char} {d : Nat} (h : digitValue? c = some d) :
    isBlank c = false := by
  have hapart : ∀ first ∈ digitZeros, ∀ r ∈ blankRanges, r.2 < first ∨ first + 10 ≤ r.1 := by
    decide
  obtain ⟨first, hfind, -⟩ := Option.map_eq_some_iff.1 h
  have hmem := List.mem_of_find?_eq_some hfind
  have hrange := List.find?_some hfind
  simp only [Bool.and_eq_true, decide_eq_true_eq] at hrange
  rw [← Bool.not_eq_true, isBlank, List.any_eq_true]
  rintro ⟨r, hr, hblank⟩
  simp only [Bool.and_eq_true, decide_eq_true_eq] at hblank
  rcases hapart first hmem r hr with hbelow | habove <;> omega

theorem isBlank_of_isDigit {c : Char} (h : c.isDigit = true) : isBlank c = false :=
  isBlank_of_digitValue? (digitValue?_ofAscii h)

/-! ## Numerals -/

/-- Digits of any script and their values.  A single underscore may stand between two
of them. -/
inductive Numeral : List Char → List Nat → Prop where
  | last {c : Char} {d : Nat} (hc : digitValue? c = some d) : Numeral [c] [d]
  | digit {c : Char} {d : Nat} {s : List Char} {ds : List Nat} (hc : digitValue? c = some d)
      (hs : Numeral s ds) : Numeral (c :: s) (d :: ds)
  | underscore {c : Char} {d : Nat} {s : List Char} {ds : List Nat} (hc : digitValue? c = some d)
      (hs : Numeral s ds) : Numeral (c :: '_' :: s) (d :: ds)

theorem Numeral.isBlank {s : List Char} {ds : List Nat} (h : Numeral s ds) :
    ∀ c ∈ s, isBlank c = false := by
  induction h with
  | last hc => exact List.forall_mem_singleton.2 (isBlank_of_digitValue? hc)
  | digit hc _ ih => exact List.forall_mem_cons.2 ⟨isBlank_of_digitValue? hc, ih⟩
  | underscore hc _ ih =>
    exact List.forall_mem_cons.2
      ⟨isBlank_of_digitValue? hc, List.forall_mem_cons.2 ⟨by decide, ih⟩⟩

/-- A numeral starts with a digit. -/
theorem Numeral.head {s : List Char} {ds : List Nat} (h : Numeral s ds) :
    ∃ c rest, s = c :: rest ∧ (digitValue? c).isSome = true := by
  cases h with
  | last hc => exact ⟨_, _, rfl, Option.isSome_iff_exists.2 ⟨_, hc⟩⟩
  | digit hc _ => exact ⟨_, _, rfl, Option.isSome_iff_exists.2 ⟨_, hc⟩⟩
  | underscore hc _ => exact ⟨_, _, rfl, Option.isSome_iff_exists.2 ⟨_, hc⟩⟩

theorem digitGroups?_eq_some_iff (s : List Char) (ds : List Nat) :
    digitGroups? s = some ds ↔ Numeral s ds := by
  constructor
  · intro h
    fun_induction digitGroups? s generalizing ds with
    | case1 => cases h
    | case2 c =>
      obtain ⟨d, hd, rfl⟩ := Option.map_eq_some_iff.1 h
      exact .last hd
    | case3 c rest ih =>
      simp only [Option.bind_eq_bind, Option.bind_eq_some_iff, Option.pure_def,
        Option.some.injEq] at h
      obtain ⟨d, hd, later, hlater, rfl⟩ := h
      exact .underscore hd (ih later hlater)
    | case4 c rest _ _ ih =>
      simp only [Option.bind_eq_bind, Option.bind_eq_some_iff, Option.pure_def,
        Option.some.injEq] at h
      obtain ⟨d, hd, later, hlater, rfl⟩ := h
      exact .digit hd (ih later hlater)
  · intro h
    induction h with
    | last hc => rw [digitGroups?, hc]; rfl
    | @digit c d s ds hc hs ih =>
      obtain ⟨c', rest, rfl, hc'⟩ := hs.head
      have hmark : c' ≠ '_' := by
        rintro rfl
        cases hc'
      rw [digitGroups?, hc, ih]
      · rfl
      · nofun
      · rintro rest' hrest
        exact hmark (List.cons.inj hrest).1
    | underscore hc hs ih =>
      rw [digitGroups?, hc, ih]
      rfl

/-! ## Whole numbers -/

theorem isPadding_eq_false {c : Char} (h : isBlank c = false) : isPadding c = false := by
  rw [isPadding, h, Bool.false_and]

/-- A numeral with so many digits, perhaps with a sign in front, and what it says. -/
inductive SignedNumeral : List Char → Nat → Int → Prop where
  | nonneg {sign body : List Char} {ds : List Nat} (hsign : sign = [] ∨ sign = ['+'])
      (hbody : Numeral body ds) : SignedNumeral (sign ++ body) ds.length (ofDigits ds)
  | nonpos {body : List Char} {ds : List Nat} (hbody : Numeral body ds) :
      SignedNumeral ('-' :: body) ds.length (-ofDigits ds)

/-- A text that says a whole number in so many digits, with blanks around it or not. -/
def IntegerText (s : List Char) (k : Nat) (n : Int) : Prop :=
  ∃ t, IsStripped isBlank s t ∧ SignedNumeral t k n

/-- Takes the sign off. -/
def splitSign : List Char → Bool × List Char
  | '-' :: rest => (true, rest)
  | '+' :: rest => (false, rest)
  | rest => (false, rest)

theorem splitSign_of_numeral {sign body : List Char} {ds : List Nat}
    (hsign : sign = [] ∨ sign = ['+']) (hbody : Numeral body ds) :
    splitSign (sign ++ body) = (false, body) := by
  rcases hsign with rfl | rfl
  · obtain ⟨c, rest, rfl, hc⟩ := hbody.head
    unfold splitSign
    split
    · rename_i hminus
      cases hminus
      cases hc
    · rename_i hplus
      cases hplus
      cases hc
    · rfl
  · rfl

theorem signedNumeral_iff (t : List Char) (k : Nat) (n : Int) :
    SignedNumeral t k n ↔ ∃ ds, Numeral (splitSign t).2 ds ∧ k = ds.length ∧
      n = if (splitSign t).1 then -(ofDigits ds : Int) else ofDigits ds := by
  constructor
  · rintro (⟨hsign, hbody⟩ | hbody)
    · rw [splitSign_of_numeral hsign hbody]
      exact ⟨_, hbody, rfl, rfl⟩
    · exact ⟨_, hbody, rfl, rfl⟩
  · rintro ⟨ds, hbody, rfl, rfl⟩
    unfold splitSign at hbody ⊢
    split at hbody
    · exact .nonpos hbody
    · show SignedNumeral (['+'] ++ _) _ _
      exact .nonneg (Or.inr rfl) hbody
    · exact .nonneg (Or.inl rfl) hbody

theorem readInt?_eq {t : List Char} (ht : dropPadding t = t) :
    readInt? t = match digitGroups? (splitSign t).2 with
      | none => none
      | some ds =>
        if ds.length ≤ maxDigitsRead then
          some (if (splitSign t).1 then -(ofDigits ds : Int) else ofDigits ds)
        else none := by
  rw [readInt?, ht]
  rfl

theorem readInt?_eq_some_iff {t : List Char} (ht : dropPadding t = t) (n : Int) :
    readInt? t = some n ↔ ∃ k ≤ maxDigitsRead, SignedNumeral t k n := by
  rw [readInt?_eq ht]
  simp only [signedNumeral_iff, ← digitGroups?_eq_some_iff]
  cases digitGroups? (splitSign t).2 with
  | none => exact iff_of_false nofun fun ⟨_, _, _, h, _⟩ => nomatch h
  | some ds =>
    constructor
    · intro h
      obtain ⟨hlength, hn⟩ := Option.ite_none_right_eq_some.1 h
      exact ⟨ds.length, hlength, ds, rfl, rfl, (Option.some.inj hn).symm⟩
    · rintro ⟨k, hk, ds', hds, rfl, rfl⟩
      rw [Option.some.inj hds]
      exact if_pos hk

theorem dropPadding_trim (s : List Char) : dropPadding (trim s) = trim s := by
  have hstripped : IsStripped isBlank s (trim s) := isStripped_stripWhere isBlank s
  exact IsStripped.eq
    ⟨⟨[], [], (List.append_nil _).symm, List.forall_mem_nil _, List.forall_mem_nil _⟩,
      fun c hc => isPadding_eq_false (hstripped.first c hc),
      fun c hc => isPadding_eq_false (hstripped.last c hc)⟩

/-- A text is read as the whole number that it says, unless it has too many digits. -/
theorem readInt?_trim_eq_some_iff (s : List Char) (n : Int) :
    readInt? (trim s) = some n ↔ ∃ k ≤ maxDigitsRead, IntegerText s k n := by
  rw [readInt?_eq_some_iff (dropPadding_trim s)]
  constructor
  · rintro ⟨k, hk, h⟩
    exact ⟨k, hk, trim s, isStripped_stripWhere isBlank s, h⟩
  · rintro ⟨k, hk, t, ht, h⟩
    have hself : trim s = t := ht.eq
    rw [hself]
    exact ⟨k, hk, h⟩

/-- Plain digits say their own number. -/
theorem numeral_of_isPlain {s : List Char} (h : isPlain s = true) :
    Numeral s (s.map fun c => c.toNat - '0'.toNat) := by
  obtain ⟨hne, hdigits⟩ := isPlain_iff.1 h
  induction s with
  | nil => exact absurd rfl hne
  | cons c s ih =>
    have hc := digitValue?_ofAscii (hdigits c List.mem_cons_self)
    have hs : ∀ c ∈ s, c.isDigit = true := fun c hc => hdigits c (List.mem_cons_of_mem _ hc)
    cases s with
    | nil => exact .last hc
    | cons c' s =>
      have hrest : c' :: s ≠ [] := List.cons_ne_nil _ _
      exact .digit hc (ih (isPlain_iff.2 ⟨hrest, hs⟩) hrest hs)

theorem isStripped_of_isPlain {s : List Char} (h : isPlain s = true) : IsStripped isBlank s s := by
  have hends := (numeral_of_isPlain h).isBlank
  exact ⟨⟨[], [], (List.append_nil _).symm, List.forall_mem_nil _, List.forall_mem_nil _⟩,
    fun c hc => hends c (List.mem_of_mem_head? hc), fun c hc => hends c (List.mem_of_getLast? hc)⟩

theorem integerText_of_isPlain {s : List Char} (h : isPlain s = true) :
    IntegerText s s.length (plainValue s) := by
  have hsigned := SignedNumeral.nonneg (Or.inl rfl) (numeral_of_isPlain h)
  rw [List.length_map] at hsigned
  exact ⟨s, isStripped_of_isPlain h, hsigned⟩

/-- Too many digits are no number. -/
theorem readInt?_trim_of_lt_length {s : List Char} (h : isPlain s = true)
    (hlength : maxDigitsRead < s.length) : readInt? (trim s) = none := by
  have hself : trim s = s := (isStripped_of_isPlain h).eq
  have hnumeral := numeral_of_isPlain h
  have hsign : splitSign s = (false, s) := splitSign_of_numeral (Or.inl rfl) hnumeral
  rw [readInt?_eq (dropPadding_trim s), hself, hsign, (digitGroups?_eq_some_iff _ _).2 hnumeral]
  exact if_neg (by rw [List.length_map]; omega)

end Intake.Number
