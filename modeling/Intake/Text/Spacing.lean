import Intake.Text.Blank

/-!
# Spacing of extracted text

Extracted text is kept in a normal spacing: words of a line are separated
by one space, lines have no space at their ends, and at most one blank
line separates two lines.

* `squeezeBlanks` and `squeezeNewlines` shorten runs.
* `normalize` is the whole reduction.
* `isNormal` describes the normal spacing on its own.
-/

namespace Intake.Text

/-- A blank inside a line. -/
def isInlineBlank (c : Char) : Bool := isBlank c && c != '\n'

/-- Writes one space for every run of blanks inside a line. -/
def squeezeBlanks (s : List Char) : List Char :=
  s.foldr
    (fun c out =>
      if isInlineBlank c then
        match out with
        | ' ' :: _ => out
        | _ => ' ' :: out
      else c :: out)
    []

/-- Writes two newlines for every longer run of newlines. -/
def squeezeNewlines (s : List Char) : List Char :=
  s.foldr
    (fun c out =>
      match c, out with
      | '\n', '\n' :: '\n' :: _ => out
      | _, _ => c :: out)
    []

/-- Trims every line. -/
def trimLines (s : List Char) : List Char := joinWith ['\n'] ((lines s).map trim)

/-- Brings a text into the normal spacing. The lines are trimmed after the
runs of newlines are shortened. -/
def normalize (s : List Char) : List Char :=
  trim (trimLines (squeezeNewlines (squeezeBlanks s)))

/-- `normalize` on strings. -/
def normalized (s : String) : String := String.ofList (normalize s.toList)

/-- A document whose text layer is blank needs to be read from its pages. -/
def isScanned (text : String) : Bool := allBlank text.toList

/-! ## The normal spacing -/

/-- Whether a list occurs inside another one as consecutive elements. -/
def occursIn (pattern : List Char) : List Char → Bool
  | [] => pattern.isEmpty
  | c :: s => pattern.isPrefixOf (c :: s) || occursIn pattern s

/-- The normal spacing: no blank but spaces and newlines, no two spaces in
a row, no space at an end of a line, no newline at an end of the text and
no three newlines in a row. -/
def isNormal (s : List Char) : Bool :=
  s.all (fun c => ! isBlank c || c == ' ' || c == '\n')
    && ! occursIn [' ', ' '] s && ! occursIn [' ', '\n'] s && ! occursIn ['\n', ' '] s
    && ! occursIn ['\n', '\n', '\n'] s
    && s.head?.all (! isBlank ·) && s.getLast?.all (! isBlank ·)

end Intake.Text
