import Intake.Table.Basic

/-!
# Pages

What was read from the pages of a document, put together in page order.

* `Page.ofTable` is a page as its table tells it.
* `Pages.joinTexts` joins texts with a blank line between pages.
* `Pages.mergeTables` appends tables under the first table's headings.
-/

namespace Intake

open Text Number

/-- The text and the token table of a page or of a whole document. -/
structure Page where
  text : String := ""
  table : String := ""
  deriving DecidableEq, Repr, Inhabited

/-- The page that a table describes. -/
def Page.ofTable (table : String) : Except TooLong Page :=
  (Table.textOf table).map fun text => ⟨text, table⟩

namespace Pages

/-- Joins the texts that are not empty with blank lines between them. -/
def joinTexts (texts : List String) : String :=
  normalized ("\n\n".intercalate (texts.filter (! ·.isEmpty)))

/-- The rows of a table below its headings, as one text. -/
def belowHeadings (table : List Char) : List Char := (table.dropWhile (· != '\n')).tail

/-- Appends a page's table; the first table that is not empty keeps its
headings. -/
def appendTable (merged table : String) : String :=
  if merged.isEmpty then table
  else merged ++ String.ofList (belowHeadings table.toList)

/-- Merges tables under the headings of the first one. -/
def mergeTables (tables : List String) : String := tables.foldl appendTable ""

/-- The pages of a document as one. -/
def merge (pages : List Page) : Page :=
  ⟨joinTexts (pages.map (·.text)), mergeTables (pages.map (·.table))⟩

end Pages
end Intake
