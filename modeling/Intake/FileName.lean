import Intake.Text.Blank

/-!
# File names

Paths are sequences of names divided by slashes. Empty names and single
dots do not count.

* `FileName.last` is the last name of a path, `FileName.stem` the same
  without its suffix.
* `FileName.title` is the default title of a document.
* `FileName.render` writes a path with the names that count.
-/

namespace Intake.FileName

open Text

/-- The names of a path that count. -/
def names (path : List Char) : List (List Char) :=
  (splitWhere (· == '/') path).filter fun name => ! name.isEmpty && name != ['.']

/-- The last name of a path, empty when no name counts. -/
def last (path : List Char) : List Char := (names path).getLast?.getD []

/-- Cuts a name before its last dot. The suffix begins with the dot; it is
`none` when the name holds no dot. -/
def cutLastDot (name : List Char) : List Char × Option (List Char) :=
  match name.reverse.span (· != '.') with
  | (_, []) => (name, none)
  | (tail, dot :: front) => (front.reverse, some (dot :: tail.reverse))

/-- The last name without its suffix. A dot in front or at the end makes no
suffix. -/
def stem (path : List Char) : List Char :=
  match cutLastDot (last path) with
  | (front, some (_ :: _ :: _)) => if front.isEmpty then last path else front
  | _ => last path

/-- The default title of a document: the words of its stem, where an
underscore or a hyphen divides words too. -/
def titleChars (path : List Char) : List Char :=
  joinWith [' '] (words ((stem path).map fun c => if c == '_' || c == '-' then ' ' else c))

/-- `titleChars` on strings. -/
def title (path : String) : String := String.ofList (titleChars path.toList)

/-- The slashes a path begins with: none, one, or exactly two. -/
def root (path : List Char) : List Char :=
  match path.takeWhile (· == '/') with
  | [] => []
  | [_, _] => ['/', '/']
  | _ => ['/']

/-- A path with the names that count; the empty path is a dot. -/
def renderChars (path : List Char) : List Char :=
  match root path ++ joinWith ['/'] (names path) with
  | [] => ['.']
  | text => text

/-- `renderChars` on strings. -/
def render (path : String) : String := String.ofList (renderChars path.toList)

/-- The last name of a path as a string. -/
def lastName (path : String) : String := String.ofList (last path.toList)

/-- The path of a name in a folder; the folder of a dot is where one is. -/
def inside (folder name : String) : String :=
  if folder == "." then name else if folder == "/" then folder ++ name else folder ++ "/" ++ name

example : title "2025-01-15-receipt.png" = "2025 01 15 receipt" := by decide +kernel

example : title ".hidden.txt" = ".hidden" ∧ title "a." = "a." ∧ title ".." = ".." := by
  decide +kernel

end Intake.FileName
