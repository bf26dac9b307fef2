/-!
# Blank characters

The characters that separate words and are dropped from the ends of a
text, with trimming and splitting over lists of characters.

* `isBlank` is the class; `isBlank_of_isWhitespace` says it contains every
  character the core library calls white space.
* `trim` drops blanks from both ends.
* `splitWhere` cuts at every separator and keeps empty pieces;
  `splitWhere_ne_nil` says there is always at least one piece.
* `lines` and `words` are the two splittings the library uses.
-/

namespace Intake.Text

/-! ## The class -/

/-- The code points of the blank characters as ranges, both ends included. -/
def blankRanges : List (Nat × Nat) :=
  [(0x09, 0x0D), (0x1C, 0x20), (0x85, 0x85), (0xA0, 0xA0), (0x1680, 0x1680),
   (0x2000, 0x200A), (0x2028, 0x2029), (0x202F, 0x202F), (0x205F, 0x205F),
   (0x3000, 0x3000)]

/-- A blank separates words. Zero-width characters are not blank. -/
def isBlank (c : Char) : Bool :=
  blankRanges.any fun r => r.1 ≤ c.toNat && c.toNat ≤ r.2

example : isBlank '\n' ∧ isBlank '\u00a0' ∧ isBlank '\u3000' := by decide

example : ¬ isBlank '\u200b' ∧ ¬ isBlank '\ufeff' := by decide

theorem isBlank_of_isWhitespace {c : Char} (h : c.isWhitespace = true) : isBlank c = true := by
  simp only [Char.isWhitespace, Bool.or_eq_true, decide_eq_true_eq] at h
  rcases h with ((rfl | rfl) | rfl) | rfl <;> decide

/-! ## Trimming -/

/-- Drops the blanks at the start. -/
def trimStart (s : List Char) : List Char := s.dropWhile isBlank

/-- Drops the blanks at the end. -/
def trimEnd (s : List Char) : List Char := (s.reverse.dropWhile isBlank).reverse

/-- Drops the blanks at both ends. -/
def trim (s : List Char) : List Char := trimEnd (trimStart s)

/-- `trim` on strings. -/
def trimmed (s : String) : String := String.ofList (trim s.toList)

/-- Whether a text holds nothing but blanks. -/
def allBlank (s : List Char) : Bool := s.all isBlank

/-! ## Splitting -/

/-- Cuts a text at every separator. The separators are dropped and empty
pieces are kept, so a text without separators is one piece. -/
def splitWhere (sep : Char → Bool) (s : List Char) : List (List Char) :=
  s.foldr
    (fun c pieces =>
      if sep c then [] :: pieces
      else match pieces with
        | [] => [[c]]
        | piece :: rest => (c :: piece) :: rest)
    [[]]

theorem splitWhere_ne_nil (sep : Char → Bool) (s : List Char) : splitWhere sep s ≠ [] := by
  cases s with
  | nil => simp [splitWhere]
  | cons c s =>
    simp only [splitWhere, List.foldr_cons]
    split
    · simp
    · split <;> simp

/-- The lines of a text, without their newlines. -/
def lines (s : List Char) : List (List Char) := splitWhere (· == '\n') s

/-- The maximal runs of characters that are not blank. -/
def words (s : List Char) : List (List Char) := (splitWhere isBlank s).filter (! ·.isEmpty)

/-- Joins pieces with a separator between neighbours. -/
def joinWith (sep : List Char) (pieces : List (List Char)) : List Char :=
  sep.intercalate pieces

/-- The lines of a string. -/
def linesOf (s : String) : List String := (lines s.toList).map String.ofList

end Intake.Text
