import Intake.Proofs.Calendar.IsoDate
import Intake.Proofs.Number.IntegerText
import Mathlib.Data.List.Find

/-!
# Spelled numbers and months

The parts of a written date are read as what they spell, and what is left after them is
known.

There are five groups.

* Characters.  Letters, digits and blanks exclude each other.
* Spellings.  `Spells` writes a number with or without a leading zero.
* Counts.  `Counts` are the readers of one number below a hundred; `Counts.read_spelled`
  says that they read a spelled number in their range, and that they stop in front of a
  digit otherwise.
* The four readers.  Months, days, hours and minutes are read by such readers.
* Months.  `readName_spelled` reads the name of a month in any letter case by either list
  of names.
-/

namespace Intake.Calendar

open Text Number

variable {s t rest : List Char} {n : Nat} {c : Char}

/-! ## Characters -/

theorem isAlpha_eq (c : Char) : c.isAlpha = (c.isUpper || c.isLower) := rfl

theorem isUpper_eq (c : Char) : c.isUpper = decide (c.val ≥ 'A'.val ∧ c.val ≤ 'Z'.val) := rfl

theorem isLower_eq (c : Char) :
    c.isLower = (decide (c.val ≥ 'a'.val) && decide (c.val ≤ 'z'.val)) :=
  rfl

theorem toNat_of_isAlpha (h : c.isAlpha = true) :
    65 ≤ c.toNat ∧ c.toNat ≤ 90 ∨ 97 ≤ c.toNat ∧ c.toNat ≤ 122 := by
  simp only [isAlpha_eq, isUpper_eq, isLower_eq, Bool.or_eq_true, Bool.and_eq_true,
    decide_eq_true_eq] at h
  exact h

theorem digitValue?_of_isAlpha (h : c.isAlpha = true) : digitValue? c = none := by
  have hcodes := toNat_of_isAlpha h
  have hapart : ∀ first ∈ digitZeros, first + 10 ≤ 65 ∨ 122 < first := by decide
  rw [digitValue?, Option.map_eq_none_iff, List.find?_eq_none]
  intro first hfirst hrange
  simp only [Bool.and_eq_true, decide_eq_true_eq] at hrange
  rcases hapart first hfirst with hlow | hhigh <;> omega

theorem isBlank_of_isAlpha (h : c.isAlpha = true) : isBlank c = false := by
  have hcodes := toNat_of_isAlpha h
  have hapart : ∀ r ∈ blankRanges, r.2 < 65 ∨ 122 < r.1 := by decide
  rw [isBlank, List.any_eq_false]
  intro r hr hrange
  simp only [Bool.and_eq_true, decide_eq_true_eq] at hrange
  rcases hapart r hr with hlow | hhigh <;> omega

/-- Only letters have a letter case. -/
theorem toLower_of_not_isAlpha (h : c.isAlpha = false) : c.toLower = c := by
  rw [isAlpha_eq, Bool.or_eq_false_iff] at h
  have hupper : ¬ (c.val ≥ 'A'.val ∧ c.val ≤ 'Z'.val) := by simpa [isUpper_eq] using h.1
  exact dif_neg hupper

theorem isAlpha_of_isLower_toLower (h : c.toLower.isLower = true) : c.isAlpha = true := by
  by_contra hnot
  rw [toLower_of_not_isAlpha (by simpa using hnot)] at h
  exact hnot (by rw [isAlpha_eq, h, Bool.or_true])

theorem isLower_toLower_of_isAlpha (h : c.isAlpha = true) : c.toLower.isLower = true := by
  have hcodes := toNat_of_isAlpha h
  have hletters : ∀ n < 128, (Char.ofNat n).isAlpha = true →
      (Char.ofNat n).toLower.isLower = true := by
    decide +kernel
  rw [← Char.ofNat_toNat c] at h ⊢
  exact hletters c.toNat (by omega) h

theorem toLower_of_isBlank (h : isBlank c = true) : c.toLower = c := by
  apply toLower_of_not_isAlpha
  by_contra halpha
  simp [isBlank_of_isAlpha (by simpa using halpha)] at h

theorem toLower_of_isDigit (h : c.isDigit = true) : c.toLower = c := by
  apply toLower_of_not_isAlpha
  by_contra halpha
  have hnone := digitValue?_of_isAlpha (by simpa using halpha)
  rw [digitValue?_ofAscii h] at hnone
  cases hnone

/-- A digit is a digit character. -/
theorem eq_digitChar_of_isDigit (h : c.isDigit = true) : ∃ d < 10, c = Nat.digitChar d := by
  have hcodes : 48 ≤ c.toNat ∧ c.toNat ≤ 57 := by
    simp only [Char.isDigit, Bool.and_eq_true, decide_eq_true_eq] at h
    exact h
  have hdigits : ∀ d < 10, Nat.digitChar d = Char.ofNat (48 + d) := by decide
  refine ⟨c.toNat - 48, by omega, ?_⟩
  rw [hdigits _ (by omega), show 48 + (c.toNat - 48) = c.toNat by omega, Char.ofNat_toNat]

/-! ## Spellings -/

/-- A text that spells a number, with or without a leading zero. -/
def Spells (t : List Char) (n : Nat) : Prop := t = padded 1 n ∨ t = padded 2 n

/-- What may follow a spelled number: nothing that begins with a digit. -/
def Stops (s : List Char) : Prop := ∀ c ∈ s.head?, digitValue? c = none

/-- A text that begins with a digit. -/
def Digital (s : List Char) : Prop := s.head?.any Char.isDigit = true

instance (s : List Char) : Decidable (Digital s) := inferInstanceAs (Decidable (_ = true))

theorem stops_nil : Stops [] := nofun

theorem stops_cons (h : digitValue? c = none) : Stops (c :: s) := by
  intro d hd
  cases hd
  exact h

theorem isDigit_of_mem_padded {width : Nat} (h : c ∈ padded width n) : c.isDigit = true := by
  rcases List.mem_append.1 h with hzero | hdigit
  · rw [List.eq_of_mem_replicate hzero]
    rfl
  · exact isDigit_of_mem_digits hdigit

theorem padded_ne_nil (width n : Nat) : padded width n ≠ [] :=
  List.append_ne_nil_of_right_ne_nil _ (digits_ne_nil n)

theorem Spells.isDigit (h : Spells t n) : ∀ c ∈ t, c.isDigit = true := by
  intro c hc
  rcases h with rfl | rfl <;> exact isDigit_of_mem_padded hc

theorem Spells.ne_nil (h : Spells t n) : t ≠ [] := by
  rcases h with rfl | rfl <;> exact padded_ne_nil _ _

/-- A number with as many digits as the width is not padded. -/
theorem padded_of_le {width : Nat} (h : width ≤ (digits n).length) : padded width n = digits n := by
  rw [padded, Nat.sub_eq_zero_of_le h]
  rfl

/-- Numbers are spelled in one digit, in two, or in more. -/
theorem Spells.cases (h : Spells t n) :
    (n < 10 ∧ t = [Nat.digitChar n]) ∨
    (n < 100 ∧ t = [Nat.digitChar (n / 10), Nat.digitChar (n % 10)]) ∨
    (100 ≤ n ∧ ∃ i < 10, ∃ j < 10, ∃ c more, t = Nat.digitChar i :: Nat.digitChar j :: c :: more ∧
      c.isDigit = true) := by
  have hlength : ∀ k, 0 < k → ((digits n).length ≤ k ↔ n < 10 ^ k) := fun k hk =>
    Nat.length_toDigits_le_iff (by decide) hk
  have hone : (digits n).length ≤ 1 ↔ n < 10 := hlength 1 (by decide)
  have htwo : (digits n).length ≤ 2 ↔ n < 100 := hlength 2 (by decide)
  rcases Nat.lt_or_ge n 10 with hsmall | hten
  · rcases h with rfl | rfl
    · exact .inl ⟨hsmall, padded_one hsmall⟩
    · exact .inr (.inl ⟨by omega, padded_two (by omega)⟩)
  have ht : t = digits n := by
    rcases h with rfl | rfl
    · exact padded_of_le (by omega)
    · exact padded_of_le (by omega)
  rcases Nat.lt_or_ge n 100 with hlt | hge
  · refine .inr (.inl ⟨hlt, ?_⟩)
    rw [ht, ← padded_two hlt]
    exact (padded_of_le (by omega)).symm
  · have hdigit : ∀ c ∈ digits n, c.isDigit = true := fun c => isDigit_of_mem_digits
    have hlong : 2 < (digits n).length := by omega
    rw [← ht] at hdigit hlong
    match t, hlong with
    | a :: b :: c :: more, _ =>
      obtain ⟨i, hi, rfl⟩ := eq_digitChar_of_isDigit (hdigit a (by simp))
      obtain ⟨j, hj, rfl⟩ := eq_digitChar_of_isDigit (hdigit b (by simp))
      exact .inr (.inr ⟨hge, i, hi, j, hj, c, more, rfl, hdigit c (by simp)⟩)

/-! ## Counts -/

/-- A result with more text behind it. -/
def Found.followedBy (found : Found) (rest : List Char) : Found :=
  found.map fun r => (r.1, r.2 ++ rest)

/-- A number in a range is found, or what is left begins with a digit. -/
def Fits (low high : Nat) (found : Found) (n : Nat) (rest : List Char) : Prop :=
  if low ≤ n ∧ n ≤ high then found = some (n, rest) else ∀ r ∈ found, Digital r.2

instance (low high : Nat) (found : Found) (n : Nat) (rest : List Char) :
    Decidable (Fits low high found n rest) :=
  inferInstanceAs (Decidable (if low ≤ n ∧ n ≤ high then _ else _))

/-- A reader that looks at two characters at most, and at one if no digit follows it. -/
structure Short (read : List Char → Found) : Prop where
  stops : ∀ a rest, Stops rest → read (a :: rest) = (read [a]).followedBy rest
  append : ∀ a b rest, read (a :: b :: rest) = (read [a, b]).followedBy rest

/-- A reader of one number in a range below a hundred.  It is given by what it does on one
and on two digits. -/
structure Counts (read : List Char → Found) (low high : Nat) : Prop where
  short : Short read
  below : high < 100
  one : ∀ d < 10, Fits low high (read [Nat.digitChar d]) d []
  two : ∀ i < 10, ∀ j < 10,
    Fits low high (read [Nat.digitChar i, Nat.digitChar j]) (i * 10 + j) [] ∧
      ∀ r ∈ read [Nat.digitChar i, Nat.digitChar j], r.2.all Char.isDigit = true

theorem Fits.followedBy {low high : Nat} {found : Found} (h : Fits low high found n [])
    (rest : List Char) : Fits low high (found.followedBy rest) n rest := by
  unfold Fits at h ⊢
  split
  · rename_i hrange
    rw [if_pos hrange] at h
    rw [h]
    rfl
  · rename_i hrange
    rw [if_neg hrange] at h
    intro r hr
    obtain ⟨r, hfound, rfl⟩ := Option.map_eq_some_iff.1 hr
    have hdigital := h r hfound
    cases hleft : r.2 with
    | nil => simp [Digital, hleft] at hdigital
    | cons c left => simpa [Digital, hleft] using hdigital

/-- A spelled number in the range is read.  Of any other spelled number a digit is left. -/
theorem Counts.read_spelled {read : List Char → Found} {low high : Nat}
    (h : Counts read low high) (ht : Spells t n) (hrest : Stops rest) :
    Fits low high (read (t ++ rest)) n rest := by
  rcases ht.cases with ⟨hn, rfl⟩ | ⟨hn, rfl⟩ | ⟨hn, i, hi, j, hj, c, more, rfl, hc⟩
  · rw [List.singleton_append, h.short.stops _ _ hrest]
    exact (h.one n hn).followedBy rest
  · have hfits := (h.two (n / 10) (by omega) (n % 10) (by omega)).1.followedBy rest
    rw [show n / 10 * 10 + n % 10 = n by omega] at hfits
    rwa [List.cons_append, List.singleton_append, h.short.append]
  · -- The third digit is left whatever the first two are.
    have hout : ¬ (low ≤ n ∧ n ≤ high) := fun hrange => by have := h.below; omega
    rw [Fits, if_neg hout, List.cons_append, List.cons_append, h.short.append]
    intro r hr
    obtain ⟨r, hfound, rfl⟩ := Option.map_eq_some_iff.1 hr
    have hdigits := (h.two i hi j hj).2 r hfound
    cases hleft : r.2 with
    | nil => exact hc
    | cons d left =>
      rw [hleft, List.all_cons, Bool.and_eq_true] at hdigits
      exact hdigits.1

/-! ## The four readers -/

theorem Short.orElse {f g : List Char → Found} (hf : Short f) (hg : Short g) :
    Short fun s => f s <|> g s where
  stops a rest hrest := by
    rw [hf.stops a rest hrest, hg.stops a rest hrest]
    cases f [a] <;> rfl
  append a b rest := by
    rw [hf.append, hg.append]
    cases f [a, b] <;> rfl

theorem digitIn_eq_none {low high : Char} (hlow : '0' ≤ low) (hhigh : high ≤ '9') (c : Char)
    (hc : digitValue? c = none) : digitIn low high c = none := by
  rw [digitIn, if_neg]
  intro hrange
  simp only [Bool.and_eq_true, decide_eq_true_eq] at hrange
  have hdigit : c.isDigit = true := by
    simp only [Char.isDigit, Bool.and_eq_true, decide_eq_true_eq]
    exact ⟨Char.le_trans hlow hrange.1, Char.le_trans hrange.2 hhigh⟩
  rw [digitValue?_ofAscii hdigit] at hc
  cases hc

theorem short_twoDigits (low high : Char) {second : Char → Option Nat}
    (hsecond : ∀ c, digitValue? c = none → second c = none) :
    Short (twoDigits low high second) where
  stops a rest hrest := by
    cases rest with
    | nil => rfl
    | cons b rest =>
      rw [twoDigits, hsecond b (hrest b rfl)]
      split <;> rfl
  append a b rest := by
    simp only [twoDigits, Found.followedBy]
    split
    · cases second b <;> rfl
    · rfl

theorem short_oneDigit (accept : Char → Option Nat) : Short (oneDigit accept) where
  stops a rest _ := by
    rw [oneDigit, oneDigit]
    cases accept a <;> rfl
  append a b rest := by
    rw [oneDigit, oneDigit]
    cases accept a <;> rfl

/-- A day behind a space. -/
def spacedDay : List Char → Found
  | ' ' :: rest => oneDigit (digitIn '1' '9') rest
  | _ => none

theorem spacedDay_cons_of_ne {a : Char} (ha : a ≠ ' ') (s : List Char) :
    spacedDay (a :: s) = none := by
  rw [spacedDay.eq_def]
  split
  · rename_i heq
    exact absurd (List.cons.inj heq).1 ha
  · rfl

theorem short_spacedDay : Short spacedDay where
  stops a rest hrest := by
    by_cases ha : a = ' '
    · rw [ha, spacedDay, spacedDay]
      cases rest with
      | nil => rfl
      | cons b rest =>
        rw [oneDigit, digitIn_eq_none (by decide) (by decide) b (hrest b rfl)]
        rfl
    · rw [spacedDay_cons_of_ne ha, spacedDay_cons_of_ne ha]
      rfl
  append a b rest := by
    by_cases ha : a = ' '
    · rw [ha]
      show oneDigit (digitIn '1' '9') (b :: rest) = _
      rw [spacedDay, oneDigit, oneDigit]
      cases digitIn '1' '9' b <;> rfl
    · rw [spacedDay_cons_of_ne ha, spacedDay_cons_of_ne ha]
      rfl

theorem counts_readMonth : Counts readMonth 1 12 where
  short := (short_twoDigits _ _ (digitIn_eq_none (by decide) (by decide))).orElse
    ((short_twoDigits _ _ (digitIn_eq_none (by decide) (by decide))).orElse (short_oneDigit _))
  below := by decide
  one := by decide
  two := by decide

theorem counts_readDay : Counts readDay 1 31 where
  short := (short_twoDigits _ _ (digitIn_eq_none (by decide) (by decide))).orElse
    ((short_twoDigits _ _ fun _ hc => hc).orElse
      ((short_twoDigits _ _ (digitIn_eq_none (by decide) (by decide))).orElse
        ((short_oneDigit _).orElse short_spacedDay)))
  below := by decide
  one := by decide
  two := by decide +kernel

theorem counts_readHour : Counts readHour 0 23 where
  short := (short_twoDigits _ _ (digitIn_eq_none (by decide) (by decide))).orElse
    ((short_twoDigits _ _ fun _ hc => hc).orElse (short_oneDigit _))
  below := by decide
  one := by decide
  two := by decide +kernel

theorem counts_readMinute : Counts readMinute 0 59 where
  short := (short_twoDigits _ _ fun _ hc => hc).orElse (short_oneDigit _)
  below := by decide
  one := by decide
  two := by decide +kernel

/-! ## Months -/

/-- A text that is one of the names in any letter case, and the number of its month. -/
def Names (names : List String) (name : List Char) (month : Nat) : Prop :=
  ∃ i word, names[i]? = some word ∧ name.map Char.toLower = word.toList ∧ month = i + 1

/-- The two lists of names. -/
def nameLists : List (List String) := [monthNames, shortMonthNames]

theorem nil_not_mem_nameLists : ∀ names ∈ nameLists, ∀ word ∈ names, word.toList ≠ [] := by
  decide +kernel

theorem isLower_of_mem_nameLists : ∀ names ∈ nameLists, ∀ word ∈ names,
    word.toList.all Char.isLower = true := by
  decide +kernel

theorem Names.isAlpha {names : List String} {name : List Char} {month : Nat}
    (hnames : names ∈ nameLists) (h : Names names name month) : ∀ c ∈ name, c.isAlpha = true := by
  obtain ⟨i, word, hword, hlower, -⟩ := h
  intro c hc
  apply isAlpha_of_isLower_toLower
  have hword := isLower_of_mem_nameLists names hnames word (List.mem_of_getElem? hword)
  rw [← hlower, List.all_map] at hword
  exact List.all_eq_true.1 hword c hc

theorem Names.ne_nil {names : List String} {name : List Char} {month : Nat}
    (hnames : names ∈ nameLists) (h : Names names name month) : name ≠ [] := by
  obtain ⟨i, word, hword, hlower, -⟩ := h
  have hne := nil_not_mem_nameLists names hnames word (List.mem_of_getElem? hword)
  rwa [← hlower, ne_eq, List.map_eq_nil_iff] at hne

/-- The first name that stands at the start of a word. -/
def firstName (names : List String) (word : List Char) : Option (String × Nat) :=
  names.zipIdx.find? fun entry => entry.1.toList.isPrefixOf word

/-- A name of a month is the first one of its list at its own start.  In the other list this
is the name of the same month or, if any, a shorter one. -/
theorem firstName_of_mem : ∀ own ∈ nameLists, ∀ other ∈ nameLists, ∀ entry ∈ own.zipIdx,
    firstName other entry.1.toList = some entry ∨
      own ≠ other ∧ ∀ found ∈ firstName other entry.1.toList,
        found.1.toList.length < entry.1.toList.length := by
  decide +kernel

/-- A word without a character is a prefix of no more than what is in front of it. -/
theorem isPrefixOf_append_cons {word : List Char} (h : c ∉ word) (s rest : List Char) :
    word.isPrefixOf (s ++ c :: rest) = word.isPrefixOf s := by
  induction word generalizing s with
  | nil => simp
  | cons a word ih =>
    obtain ⟨hne, hword⟩ := List.ne_and_not_mem_of_not_mem_cons h
    cases s with
    | nil => simp [List.isPrefixOf, Ne.symm hne]
    | cons d s =>
      rw [List.cons_append, List.isPrefixOf, List.isPrefixOf, ih hword]

theorem startsWith_eq (word s : List Char) :
    startsWith word s = word.isPrefixOf (s.map Char.toLower) := by
  rw [Bool.eq_iff_iff, List.isPrefixOf_iff_prefix, List.prefix_iff_eq_take, startsWith,
    Bool.and_eq_true, decide_eq_true_eq, beq_iff_eq, List.map_take]
  constructor
  · rintro ⟨-, htake⟩
    exact htake.symm
  · intro htake
    refine ⟨?_, htake.symm⟩
    have hlength := congrArg List.length htake
    rw [List.length_take, List.length_map] at hlength
    omega

theorem readName_eq {names : List String} (hnames : names ∈ nameLists) (name : List Char)
    {b : Char} (hb : isBlank b = true) (rest : List Char) :
    readName names (name ++ b :: rest) =
      (firstName names (name.map Char.toLower)).map fun entry =>
        (entry.2 + 1, (name ++ b :: rest).drop entry.1.toList.length) := by
  have hfind : (names.zipIdx.find? fun entry => startsWith entry.1.toList (name ++ b :: rest)) =
      firstName names (name.map Char.toLower) := by
    refine List.find?_congr fun entry hentry => ?_
    have hmem : entry.1 ∈ names := List.fst_mem_of_mem_zipIdx hentry
    have hword : b ∉ entry.1.toList := by
      intro hblank
      have hlower := List.all_eq_true.1 (isLower_of_mem_nameLists names hnames _ hmem) b hblank
      have halpha : b.isAlpha = true := by rw [isAlpha_eq, hlower, Bool.or_true]
      rw [isBlank_of_isAlpha halpha] at hb
      cases hb
    rw [startsWith_eq, List.map_append, List.map_cons, toLower_of_isBlank hb,
      isPrefixOf_append_cons hword]
  rw [readName]
  show Option.map _ (names.zipIdx.find? fun entry => startsWith entry.1.toList _) = _
  rw [hfind]
  rfl

/-- A month is read by its name and nothing more. -/
theorem names_of_readName {names : List String} {month : Nat} {left : List Char}
    (h : readName names s = some (month, left)) :
    ∃ name, s = name ++ left ∧ Names names name month := by
  obtain ⟨⟨word, i⟩, hfind, heq⟩ := Option.map_eq_some_iff.1 h
  obtain ⟨rfl, rfl⟩ := Prod.mk.inj heq
  have hstarts := List.find?_some hfind
  have hmem := List.mk_mem_zipIdx_iff_getElem?.1 (List.mem_of_find?_eq_some hfind)
  simp only [startsWith, Bool.and_eq_true, beq_iff_eq] at hstarts
  exact ⟨s.take word.toList.length, (List.take_append_drop _ _).symm, i, word, hmem, hstarts.2,
    rfl⟩

/-- The name of a month is read by its own list.  The other list reads the same month, or
nothing, or leaves a part of the name. -/
theorem readName_spelled {own other : List String} (hown : own ∈ nameLists)
    (hother : other ∈ nameLists) {name : List Char} {month : Nat} (h : Names own name month)
    {b : Char} (hb : isBlank b = true) (rest : List Char) :
    readName other (name ++ b :: rest) = some (month, b :: rest) ∨
      own ≠ other ∧ ∀ r ∈ readName other (name ++ b :: rest),
        ∃ c ∈ r.2.head?, isBlank c = false := by
  have halpha := h.isAlpha hown
  obtain ⟨i, word, hword, hlower, rfl⟩ := h
  have hlength : name.length = word.toList.length := by rw [← hlower, List.length_map]
  have hentry : (word, i) ∈ own.zipIdx := List.mk_mem_zipIdx_iff_getElem?.2 hword
  rw [readName_eq hother name hb rest, hlower]
  rcases firstName_of_mem own hown other hother _ hentry with hfirst | ⟨hne, hshort⟩
  · left
    rw [hfirst, Option.map_some, ← hlength, List.drop_left]
  · right
    refine ⟨hne, fun r hr => ?_⟩
    obtain ⟨found, hfound, rfl⟩ := Option.map_eq_some_iff.1 hr
    have hlt : found.1.toList.length < name.length := hlength ▸ hshort found hfound
    refine ⟨name[found.1.toList.length], ?_, isBlank_of_isAlpha (halpha _ (List.getElem_mem hlt))⟩
    rw [List.head?_drop, List.getElem?_append_left hlt, List.getElem?_eq_getElem hlt]
    rfl

end Intake.Calendar
