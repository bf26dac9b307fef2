import Intake.Json.Reader
import Intake.Json.Writer
import Intake.Proofs.Number.Digits
import Intake.Proofs.Text.Stripped
import Mathlib.Data.List.Chain

/-!
# Strings written and read

A string that was read can be written in ASCII and is read back as it was,
its unpaired halves included.

There are three groups.

* Prose.  `Prose.Sound` says which glyphs a reader can give: a half is a unit
  of its range, and no two neighbours make a pair.
* Reading.  `sound_of_readString` says that every string that is read is
  sound.
* Reading back.  `scanString_flatMap` follows the scanner through a written
  string, and `readString_write` is the result.
-/

namespace Intake

open Text Number

/-! ## Prose -/

namespace Text

/-- A half is a unit of the range of halves. -/
def Glyph.IsSound : Glyph → Prop
  | .char _ => True
  | .half unit => 0xD800 ≤ unit.toNat ∧ unit.toNat < 0xE000

/-- Two glyphs are the halves of a pair. -/
def Glyph.Pairs : Glyph → Glyph → Prop
  | .half high, .half low => Json.isHigh high = true ∧ Json.isLow low = true
  | _, _ => False

/-- Halves are units of their range, and those that make a pair have been
joined. -/
structure Prose.Sound (p : Prose) : Prop where
  glyphs : ∀ g ∈ p, g.IsSound
  unpaired : p.IsChain fun g g' => ¬ g.Pairs g'

namespace Prose

theorem sound_nil : Sound [] := ⟨nofun, .nil⟩

theorem Sound.of_isInfix {p q : Prose} (h : p.Sound) (hq : q <:+: p) : q.Sound :=
  ⟨fun g hg => h.glyphs g (hq.subset hg), h.unpaired.infix hq⟩

theorem trim_isInfix (p : Prose) : p.trim <:+: p := stripWhere_isInfix isBlankGlyph p

theorem Sound.trim {p : Prose} (h : p.Sound) : p.trim.Sound := h.of_isInfix (trim_isInfix p)

/-- Characters alone make no pair. -/
theorem sound_ofChars (s : List Char) : (ofChars s).Sound := by
  refine ⟨fun g hg => ?_, ?_⟩
  · obtain ⟨c, -, rfl⟩ := List.mem_map.1 hg
    trivial
  · induction s with
    | nil => exact .nil
    | cons c s ih =>
      cases s with
      | nil => exact .singleton _
      | cons d s => exact .cons_cons id ih

end Prose
end Text

namespace Json

/-! ## Reading -/

theorem isSound_unitGlyph {n : Nat} (h : n < 0x10000) : (unitGlyph n).IsSound := by
  rw [unitGlyph]
  split
  · rename_i hrange
    rw [Bool.and_eq_true, decide_eq_true_eq, decide_eq_true_eq] at hrange
    show 0xD800 ≤ n.toUInt16.toNat ∧ n.toUInt16.toNat < 0xE000
    have hunit : n.toUInt16.toNat = n := Nat.mod_eq_of_lt h
    rwa [hunit]
  · trivial

theorem hexValue?_lt {c : Char} {n : Nat} (h : hexValue? c = some n) : n < 16 := by
  have hle : ∀ {a b : Char}, a ≤ b → a.toNat ≤ b.toNat := fun h => h
  rw [hexValue?] at h
  split at h
  · rename_i hdigit
    have hvalue := digitValue_lt hdigit
    rw [Option.some.injEq] at h
    omega
  · split at h
    · rename_i hrange
      rw [Bool.and_eq_true, decide_eq_true_eq, decide_eq_true_eq] at hrange
      have hhigh : c.toNat ≤ 102 := hle hrange.2
      have hlow : 97 ≤ c.toNat := hle hrange.1
      rw [Option.some.injEq] at h
      have ha : 'a'.toNat = 97 := rfl
      omega
    · split at h
      · rename_i hrange
        rw [Bool.and_eq_true, decide_eq_true_eq, decide_eq_true_eq] at hrange
        have hhigh : c.toNat ≤ 70 := hle hrange.2
        have hlow : 65 ≤ c.toNat := hle hrange.1
        rw [Option.some.injEq] at h
        have ha : 'A'.toNat = 65 := rfl
        omega
      · cases h

theorem hexUnit?_lt {a b c d : Char} {n : Nat} (h : hexUnit? a b c d = some n) : n < 0x10000 := by
  rw [hexUnit?] at h
  split at h
  · rename_i ha hb hc hd
    have := hexValue?_lt ha
    have := hexValue?_lt hb
    have := hexValue?_lt hc
    have := hexValue?_lt hd
    rw [Option.some.injEq] at h
    omega
  · cases h

theorem isSound_of_scanString {start s left : List Char} {acc glyphs : List Glyph}
    (h : scanString start acc s = .ok (glyphs, left)) (hacc : ∀ g ∈ acc, g.IsSound) :
    ∀ g ∈ glyphs, g.IsSound := by
  have hcons : ∀ {acc : List Glyph} {g : Glyph}, g.IsSound → (∀ g ∈ acc, g.IsSound) →
      ∀ g' ∈ g :: acc, g'.IsSound := fun hg hacc => List.forall_mem_cons.2 ⟨hg, hacc⟩
  fun_induction scanString start acc s with
  | case2 acc c rest hquote =>
    cases h
    exact fun g hg => hacc g (List.mem_reverse.1 hg)
  | case4 acc c _ _ e _ a b c' d tail n _ hunit ih =>
    exact ih h (hcons (isSound_unitGlyph (hexUnit?_lt hunit)) hacc)
  | case7 acc c _ _ e after _ d _ ih => exact ih h (hcons trivial hacc)
  | case10 acc c after _ _ _ ih => exact ih h (hcons trivial hacc)
  | _ => cases h

/-- Joining leaves a half in front only where one was. -/
theorem head?_of_head?_joinHalves {gs : List Glyph} {unit : UInt16}
    (h : (joinHalves gs).head? = some (.half unit)) : gs.head? = some (.half unit) := by
  fun_cases joinHalves gs with
  | case1 => cases h
  | case2 high low rest hpair =>
    rw [joinHalves, if_pos hpair] at h
    cases h
  | case3 high low rest hpair =>
    rw [joinHalves, if_neg hpair] at h
    exact h
  | case4 g rest hother =>
    rw [joinHalves.eq_3 g rest hother] at h
    exact h

theorem sound_joinHalves {gs : List Glyph} (h : ∀ g ∈ gs, g.IsSound) : (joinHalves gs).Sound := by
  -- A glyph may stand before joined ones with which it makes no pair.
  have hcons : ∀ {g : Glyph} {p : Prose}, g.IsSound → p.Sound →
      (∀ unit, p.head? = some (.half unit) → ¬ g.Pairs (.half unit)) → Prose.Sound (g :: p) := by
    intro g p hg hp hhead
    refine ⟨List.forall_mem_cons.2 ⟨hg, hp.glyphs⟩, ?_⟩
    cases p with
    | nil => exact .singleton g
    | cons g' p =>
      refine .cons_cons ?_ hp.unpaired
      cases g' with
      | char c => cases g <;> exact id
      | half unit => exact hhead unit rfl
  fun_induction joinHalves gs with
  | case1 => exact Prose.sound_nil
  | case2 high low rest hpair ih =>
    have hrest := ih fun g hg => h g (List.mem_cons_of_mem _ (List.mem_cons_of_mem _ hg))
    exact hcons trivial hrest fun _ _ => id
  | case3 high low rest hpair ih =>
    have hrest := ih fun g hg => h g (List.mem_cons_of_mem _ hg)
    refine hcons (h _ List.mem_cons_self) hrest fun unit hunit hpairs => hpair ?_
    obtain rfl : low = unit := by simpa using head?_of_head?_joinHalves hunit
    rw [hpairs.1, hpairs.2]
    rfl
  | case4 g rest hother ih =>
    have hrest := ih fun g hg => h g (List.mem_cons_of_mem _ hg)
    refine hcons (h _ List.mem_cons_self) hrest fun unit hunit => ?_
    have hhead := head?_of_head?_joinHalves hunit
    cases rest with
    | nil => cases hhead
    | cons g' rest =>
      obtain rfl : g' = .half unit := by simpa using hhead
      cases g with
      | char c => exact id
      | half high => exact absurd rfl (fun hfalse => hother high unit rest rfl hfalse)

/-- Every string that is read is sound. -/
theorem sound_of_readString {rest left : List Char} {p : Prose}
    (h : readString rest = .ok (p, left)) : p.Sound := by
  rw [readString] at h
  split at h
  · rename_i glyphs left' hscan
    obtain ⟨rfl, -⟩ := Prod.mk.inj (Except.ok.inj h)
    exact sound_joinHalves (isSound_of_scanString hscan nofun)
  · cases h

/-! ## Reading back -/

theorem scanString_quote (start : List Char) (acc : List Glyph) (left : List Char) :
    scanString start acc ('"' :: left) = .ok (acc.reverse, left) := by
  rw [scanString.eq_def]
  rfl

theorem scanString_letter (start : List Char) (acc : List Glyph) {letter c : Char}
    (hletter : letter ≠ 'u') (hc : escaped? letter = some c) (left : List Char) :
    scanString start acc ('\\' :: letter :: left) = scanString start (.char c :: acc) left := by
  rw [scanString.eq_def]
  simp [hletter, hc]

theorem scanString_plain (start : List Char) (acc : List Glyph) {c : Char} (hquote : c ≠ '"')
    (hslash : c ≠ '\\') (hcontrol : ¬ c.toNat ≤ 0x1F) (left : List Char) :
    scanString start acc (c :: left) = scanString start (.char c :: acc) left := by
  rw [scanString.eq_def]
  simp [hquote, hslash, hcontrol]

theorem hexValue?_digitChar : ∀ d < 16, hexValue? (Nat.digitChar d) = some d := by decide

theorem hex_four {n : Nat} (h : n < 0x10000) : hex 4 n =
    [Nat.digitChar (n / 16 / 16 / 16), Nat.digitChar (n / 16 / 16 % 16),
      Nat.digitChar (n / 16 % 16), Nat.digitChar (n % 16)] := by
  rw [hex_succ 2, hex_succ 1, hex_succ 0, hex_one (by omega)]
  rfl

/-- The escape of a unit is read as the glyph of the unit. -/
theorem scanString_unitEscape (start : List Char) (acc : List Glyph) {n : Nat} (h : n < 0x10000)
    {left : List Char} (hleft : left ≠ []) :
    scanString start acc (unitEscape n ++ left) = scanString start (unitGlyph n :: acc) left := by
  have hunit : hexUnit? (Nat.digitChar (n / 16 / 16 / 16)) (Nat.digitChar (n / 16 / 16 % 16))
      (Nat.digitChar (n / 16 % 16)) (Nat.digitChar (n % 16)) = some n := by
    rw [hexUnit?, hexValue?_digitChar _ (by omega), hexValue?_digitChar _ (by omega),
      hexValue?_digitChar _ (by omega), hexValue?_digitChar _ (by omega)]
    dsimp only
    rw [Option.some.injEq]
    omega
  have hmore : left.isEmpty = false := by simpa using hleft
  rw [unitEscape, hex_four h]
  simp only [List.cons_append, List.nil_append]
  rw [scanString]
  simp only [hunit, hmore]
  rfl

/-- A glyph as the scanner sees it: a character beyond 16 bits is two
halves. -/
def unitsOf : Glyph → List Glyph
  | .half unit => [.half unit]
  | .char c =>
    if c.toNat < 0x10000 then [.char c]
    else [unitGlyph (0xD800 + (c.toNat - 0x10000) / 0x400),
      unitGlyph (0xDC00 + (c.toNat - 0x10000) % 0x400)]

theorem lt_of_toNat (c : Char) : c.toNat < 0x110000 ∧ ¬ (0xD800 ≤ c.toNat ∧ c.toNat < 0xE000) := by
  have hvalid : c.toNat.isValidChar := c.valid
  rw [Nat.isValidChar] at hvalid
  omega

theorem unitGlyph_toNat (c : Char) : unitGlyph c.toNat = .char c := by
  have hrange := (lt_of_toNat c).2
  rw [unitGlyph, if_neg (by simpa using hrange), Char.ofNat_toNat]

/-- Each letter escape stands for its character. -/
theorem escaped?_of_lookup {c letter : Char} (h : letterEscapes.lookup c = some letter) :
    letter ≠ 'u' ∧ escaped? letter = some c ∧ c.toNat < 0x10000 := by
  obtain ⟨before, after, hsplit, -⟩ := List.lookup_eq_some_iff.1 h
  have hmem : (c, letter) ∈ letterEscapes := by simp [hsplit]
  have hall : ∀ e ∈ letterEscapes, e.2 ≠ 'u' ∧ escaped? e.2 = some e.1 ∧ e.1.toNat < 0x10000 := by
    decide
  exact hall (c, letter) hmem

theorem ne_of_lookup_eq_none {c : Char} (h : letterEscapes.lookup c = none) :
    c ≠ '"' ∧ c ≠ '\\' := by
  refine ⟨?_, ?_⟩
  · rintro rfl
    exact absurd h (by decide)
  · rintro rfl
    exact absurd h (by decide)

theorem unitsOf_of_lt {c : Char} (h : c.toNat < 0x10000) : unitsOf (.char c) = [.char c] := if_pos h

theorem scanString_escapedChar (start : List Char) (acc : List Glyph) {c : Char}
    (h : c.toNat < 0x10000) {left : List Char} (hleft : left ≠ []) :
    scanString start acc (unitEscape c.toNat ++ left) =
      scanString start ((unitsOf (.char c)).reverse ++ acc) left := by
  rw [scanString_unitEscape start acc h hleft, unitGlyph_toNat, unitsOf_of_lt h]
  rfl

/-- A character beyond 16 bits is written as its two halves. -/
theorem scanString_escapedPair (start : List Char) (acc : List Glyph) {c : Char}
    (h : ¬ c.toNat < 0x10000) {left : List Char} (hleft : left ≠ []) :
    scanString start acc (unitEscape (0xD800 + (c.toNat - 0x10000) / 0x400) ++
        unitEscape (0xDC00 + (c.toNat - 0x10000) % 0x400) ++ left) =
      scanString start ((unitsOf (.char c)).reverse ++ acc) left := by
  have hlt := (lt_of_toNat c).1
  have hhigh : 0xD800 + (c.toNat - 0x10000) / 0x400 < 0x10000 := by omega
  have hlow : 0xDC00 + (c.toNat - 0x10000) % 0x400 < 0x10000 := by omega
  have hmore : unitEscape (0xDC00 + (c.toNat - 0x10000) % 0x400) ++ left ≠ [] :=
    List.append_ne_nil_of_right_ne_nil _ hleft
  rw [List.append_assoc, scanString_unitEscape start acc hhigh hmore,
    scanString_unitEscape start _ hlow hleft, unitsOf, if_neg h]
  rfl

/-- A written character is read as it was, or as its two halves. -/
theorem scanString_writeChar (start : List Char) (acc : List Glyph) (c : Char)
    {left : List Char} (hleft : left ≠ []) :
    scanString start acc (writeChar true c ++ left) =
      scanString start ((unitsOf (.char c)).reverse ++ acc) left := by
  rw [writeChar]
  cases hletter : letterEscapes.lookup c with
  | some letter =>
    obtain ⟨hne, hescaped, hsmall⟩ := escaped?_of_lookup hletter
    rw [unitsOf_of_lt hsmall]
    exact scanString_letter start acc hne hescaped left
  | none =>
    obtain ⟨hquote, hslash⟩ := ne_of_lookup_eq_none hletter
    dsimp only
    split_ifs with hcontrol hplain hsmall
    · have hsmall : c.toNat < 0x10000 := by
        rw [Bool.true_and, Bool.or_eq_true, decide_eq_true_eq, beq_iff_eq] at hcontrol
        omega
      exact scanString_escapedChar start acc hsmall hleft
    · rw [Bool.true_and, Bool.or_eq_true, decide_eq_true_eq, beq_iff_eq] at hcontrol
      rw [Bool.not_true, Bool.or_false, decide_eq_true_eq] at hplain
      have hsmall : c.toNat < 0x10000 := by omega
      rw [unitsOf_of_lt hsmall]
      exact scanString_plain start acc hquote hslash (by omega) left
    · exact scanString_escapedChar start acc hsmall hleft
    · exact scanString_escapedPair start acc hsmall hleft

theorem scanString_writeGlyph (start : List Char) (acc : List Glyph) {g : Glyph}
    (hg : g.IsSound) {left : List Char} (hleft : left ≠ []) :
    scanString start acc (writeGlyph true g ++ left) =
      scanString start ((unitsOf g).reverse ++ acc) left := by
  cases g with
  | char c => exact scanString_writeChar start acc c hleft
  | half unit =>
    have hrange : 0xD800 ≤ unit.toNat ∧ unit.toNat < 0xE000 := hg
    have hunit : unitGlyph unit.toNat = .half unit := by
      rw [unitGlyph, if_pos (by simpa using hrange)]
      simp
    rw [writeGlyph, if_pos rfl, scanString_unitEscape start acc unit.toNat_lt hleft, hunit]
    rfl

/-- The scanner goes through a written string to its closing quote. -/
theorem scanString_flatMap (start : List Char) {p : Prose} (h : ∀ g ∈ p, g.IsSound)
    (acc : List Glyph) (left : List Char) :
    scanString start acc (p.flatMap (writeGlyph true) ++ '"' :: left) =
      .ok (acc.reverse ++ p.flatMap unitsOf, left) := by
  induction p generalizing acc with
  | nil =>
    rw [List.flatMap_nil, List.flatMap_nil, List.append_nil]
    exact scanString_quote start acc left
  | cons g p ih =>
    have hrest : p.flatMap (writeGlyph true) ++ '"' :: left ≠ [] := by simp
    rw [List.flatMap_cons, List.append_assoc,
      scanString_writeGlyph start acc (h g List.mem_cons_self) hrest,
      ih (fun g hg => h g (List.mem_cons_of_mem _ hg))]
    simp

theorem unitGlyph_of_range {n : Nat} (h : 0xD800 ≤ n ∧ n < 0xE000) :
    unitGlyph n = .half n.toUInt16 ∧ n.toUInt16.toNat = n := by
  refine ⟨?_, Nat.mod_eq_of_lt (by omega)⟩
  rw [unitGlyph, if_pos (by simpa using h)]

theorem isHigh_iff (unit : UInt16) :
    isHigh unit = true ↔ 0xD800 ≤ unit.toNat ∧ unit.toNat < 0xDC00 := by
  rw [isHigh, Bool.and_eq_true, decide_eq_true_eq, decide_eq_true_eq]
  exact Iff.rfl

theorem isLow_iff (unit : UInt16) :
    isLow unit = true ↔ 0xDC00 ≤ unit.toNat ∧ unit.toNat < 0xE000 := by
  rw [isLow, Bool.and_eq_true, decide_eq_true_eq, decide_eq_true_eq]
  exact Iff.rfl

/-- The halves of a character beyond 16 bits are joined to that character. -/
theorem joinHalves_unitsOf_char (c : Char) (gs : List Glyph) :
    joinHalves (unitsOf (.char c) ++ gs) = .char c :: joinHalves gs := by
  have hlt := (lt_of_toNat c).1
  rw [unitsOf]
  split
  · exact joinHalves.eq_3 _ gs nofun
  · rename_i hlarge
    obtain ⟨hhigh, hhighNat⟩ :=
      unitGlyph_of_range (n := 0xD800 + (c.toNat - 0x10000) / 0x400) (by omega)
    obtain ⟨hlow, hlowNat⟩ :=
      unitGlyph_of_range (n := 0xDC00 + (c.toNat - 0x10000) % 0x400) (by omega)
    have hchar : 0x10000 + ((0xD800 + (c.toNat - 0x10000) / 0x400) - 0xD800) * 0x400 +
        ((0xDC00 + (c.toNat - 0x10000) % 0x400) - 0xDC00) = c.toNat := by omega
    rw [hhigh, hlow, List.cons_append, List.cons_append, List.nil_append, joinHalves, if_pos,
      pairChar, hhighNat, hlowNat, hchar, Char.ofNat_toNat]
    rw [Bool.and_eq_true, isHigh_iff, isLow_iff, hhighNat, hlowNat]
    omega

/-- A half is left as it is unless the second half of its pair follows. -/
theorem joinHalves_half {high : UInt16} {gs : List Glyph}
    (h : ∀ low, gs.head? = some (.half low) → ¬ Glyph.Pairs (.half high) (.half low)) :
    joinHalves (.half high :: gs) = .half high :: joinHalves gs := by
  cases gs with
  | nil => rfl
  | cons g gs =>
    cases g with
    | char c => rfl
    | half low =>
      have hnot : ¬ (isHigh high && isLow low) = true := by
        rw [Bool.and_eq_true]
        exact h low rfl
      rw [joinHalves, if_neg hnot]

/-- The glyph after a half is scanned as one that makes no pair with it. -/
theorem not_pairs_of_head?_flatMap {high low : UInt16} {p : Prose}
    (h : (.half high :: p).IsChain fun g g' : Glyph => ¬ g.Pairs g')
    (hlow : (p.flatMap unitsOf).head? = some (.half low)) :
    ¬ Glyph.Pairs (.half high) (.half low) := by
  cases p with
  | nil => cases hlow
  | cons g p =>
    rw [List.flatMap_cons] at hlow
    cases g with
    | half unit =>
      obtain rfl : unit = low := by simpa [unitsOf] using hlow
      exact (List.isChain_cons_cons.1 h).1
    | char c =>
      rw [unitsOf] at hlow
      split at hlow
      · cases hlow
      · -- The first half of a pair is no second half.
        obtain ⟨hhigh, hhighNat⟩ := unitGlyph_of_range
          (n := 0xD800 + (c.toNat - 0x10000) / 0x400) (by have := (lt_of_toNat c).1; omega)
        rw [hhigh] at hlow
        have hunit := Glyph.half.inj (Option.some.inj hlow)
        rintro ⟨-, hsecond⟩
        rw [isLow_iff, ← hunit, hhighNat] at hsecond
        have := (lt_of_toNat c).1
        omega

/-- Joining undoes the scanning of a sound string. -/
theorem joinHalves_flatMap {p : Prose} (h : p.Sound) : joinHalves (p.flatMap unitsOf) = p := by
  induction p with
  | nil => rfl
  | cons g p ih =>
    have hrest := ih (h.of_isInfix (List.suffix_cons g p).isInfix)
    rw [List.flatMap_cons]
    cases g with
    | char c => rw [joinHalves_unitsOf_char, hrest]
    | half unit =>
      rw [unitsOf, List.singleton_append,
        joinHalves_half fun low hlow => not_pairs_of_head?_flatMap h.unpaired hlow, hrest]

/-- A sound string that was written in ASCII is read as it was. -/
theorem readString_write {p : Prose} (h : p.Sound) (left : List Char) :
    readString (p.flatMap (writeGlyph true) ++ '"' :: left) = .ok (p, left) := by
  rw [readString, scanString_flatMap _ h.glyphs, List.reverse_nil, List.nil_append]
  dsimp only
  rw [joinHalves_flatMap h]

end Json
end Intake
