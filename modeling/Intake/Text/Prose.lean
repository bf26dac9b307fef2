import Intake.Text.Blank

/-!
# Prose

The text of a decoded string value. Beside characters it may hold halves
of surrogate pairs: an escape may name one half alone, which is accepted
and kept, although it is no character.

* `Prose.ofString` and `Prose.chars?` convert; `chars?_ofChars` says that
  text without halves is read back.
* `Prose.trim` drops blanks at both ends; a half is never blank.
-/

namespace Intake.Text

/-- A character, or a half of a surrogate pair that stands alone. -/
inductive Glyph where
  | char (c : Char)
  | half (unit : UInt16)
  deriving DecidableEq, Inhabited

/-- Text that may hold unpaired halves. -/
abbrev Prose := List Glyph

namespace Prose

/-- Characters as prose. -/
def ofChars (s : List Char) : Prose := s.map .char

/-- A string as prose. -/
def ofString (s : String) : Prose := ofChars s.toList

/-- The characters of a text without halves. -/
def chars? : Prose → Option (List Char)
  | [] => some []
  | .char c :: rest => (chars? rest).map (c :: ·)
  | .half _ :: _ => none

theorem chars?_ofChars (s : List Char) : chars? (ofChars s) = some s := by
  induction s with
  | nil => rfl
  | cons c s ih =>
    have h : chars? (s.map Glyph.char) = some s := ih
    simp [ofChars, chars?, h]

/-- Whether a glyph is a blank. -/
def isBlankGlyph : Glyph → Bool
  | .char c => isBlank c
  | .half _ => false

/-- Drops the blanks at both ends. -/
def trim (p : Prose) : Prose :=
  ((p.dropWhile isBlankGlyph).reverse.dropWhile isBlankGlyph).reverse

theorem trim_ofChars (s : List Char) : trim (ofChars s) = ofChars (Text.trim s) := by
  have hdrop : ∀ t : List Char, (t.map Glyph.char).dropWhile isBlankGlyph =
      (t.dropWhile isBlank).map Glyph.char := by
    intro t
    induction t with
    | nil => rfl
    | cons c t ih =>
      by_cases h : isBlank c <;> simp [isBlankGlyph, h, ih]
  simp only [trim, ofChars, hdrop, Text.trim, trimEnd, trimStart, ← List.map_reverse]

/-- The text with every half shown as a replacement character. -/
def display (p : Prose) : String :=
  String.ofList (p.map fun
    | .char c => c
    | .half _ => '\ufffd')

end Prose
end Intake.Text
