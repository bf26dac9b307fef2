import Intake.Number.Reading
import Intake.Text.Spacing

/-!
# Token tables

The engine that reads page images reports a table of tokens: one row per
token, its cells separated by tabs, after one row of headings.

* `Token` is a word with its place on the page.
* `Table.tokens` reads the rows; a row without a word is passed over.
* `Table.layOut` writes tokens as text, and `Table.text` is the composition.
-/

namespace Intake

open Text Number

/-- A word with the numbers of its block, paragraph and line. -/
structure Token where
  block : Nat
  paragraph : Nat
  line : Nat
  word : List Char
  deriving DecidableEq, Repr

namespace Table

/-- The column of the words. -/
def wordColumn : Nat := 11

/-- A cell that holds plain digits is their number, every other is zero. -/
def cellNumber (cell : List Char) : Except TooLong Nat :=
  if ! cell.isEmpty && cell.all Char.isDigit then ofAsciiDigits cell else .ok 0

/-- The token of a row; a row that is too short or has a blank word has
none, and its numbers are not looked at. -/
def rowToken? (row : List Char) : Except TooLong (Option Token) :=
  let cells := splitWhere (· == '\t') row
  match cells[2]?, cells[3]?, cells[4]?, cells[wordColumn]? with
  | some block, some paragraph, some line, some word =>
    if (trim word).isEmpty then .ok none
    else do
      let block ← cellNumber block
      let paragraph ← cellNumber paragraph
      let line ← cellNumber line
      return some ⟨block, paragraph, line, trim word⟩
  | _, _, _, _ => .ok none

/-- Reads rows in order. The first number that is too long ends the
reading. -/
def rowTokens (rows : List (List Char)) : Except TooLong (List Token) :=
  (rows.mapM rowToken?).map fun found => found.filterMap id

/-- The tokens of a table. The first row holds the headings. -/
def tokens (table : List Char) : Except TooLong (List Token) := rowTokens (lines table).tail

/-- Whether two tokens stand in one paragraph. -/
def sameParagraph (a b : Token) : Bool := a.block == b.block && a.paragraph == b.paragraph

/-- What is written between two tokens: a blank line between paragraphs, a
newline between lines, else a space. -/
def gap (a b : Token) : List Char :=
  if ! sameParagraph a b then ['\n', '\n']
  else if a.line != b.line then ['\n']
  else [' ']

/-- A token's word behind the gap to the token before it. -/
def placed (before : Option Token) (t : Token) : List Char :=
  match before with
  | some b => gap b t ++ t.word
  | none => t.word

/-- Writes tokens as text. -/
def layOut (ts : List Token) : List Char :=
  (List.zipWith placed (none :: ts.map some) ts).flatten

/-- The text of a table. -/
def text (table : List Char) : Except TooLong (List Char) := (tokens table).map layOut

/-- `text` on strings. -/
def textOf (table : String) : Except TooLong String := (text table.toList).map String.ofList

end Table
end Intake
