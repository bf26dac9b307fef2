import Intake.Json.Basic
import Intake.Number.Written
import Intake.Text.Quoted

/-!
# JSON text written

Values as text, in one line or indented, and with or without characters
beyond ASCII.

* `Style` holds the decisions; `Style.compact` and `Style.indented` are the
  two in use.
* `write` writes a value.
-/

namespace Intake.Json

open Text Number

/-- How values are written. -/
structure Style where
  /-- Every other character is escaped. -/
  asciiOnly : Bool
  /-- The width of one step of indentation; `none` writes one line. -/
  indent : Option Nat
  deriving DecidableEq, Repr

/-- One line of ASCII characters. -/
def Style.compact : Style := ⟨true, none⟩

/-- Lines indented by two spaces, with characters of any script. -/
def Style.indented : Style := ⟨false, some 2⟩

/-- Starts a new line at a depth. In one line the alternative is written. -/
def Style.break (style : Style) (depth : Nat) (inLine : List Char) : List Char :=
  match style.indent with
  | none => inLine
  | some width => '\n' :: List.replicate (width * depth) ' '

/-! ## Strings -/

/-- A 16-bit unit as an escape. -/
def unitEscape (n : Nat) : List Char := '\\' :: 'u' :: hex 4 n

/-- The one-letter escapes. -/
def letterEscapes : List (Char × Char) :=
  [('"', '"'), ('\\', '\\'), ('\n', 'n'), ('\r', 'r'), ('\t', 't'),
   (Char.ofNat 0x0C, 'f'), (Char.ofNat 0x08, 'b')]

/-- A character inside a string. Beyond 16 bits it is escaped as a pair of
units. -/
def writeChar (asciiOnly : Bool) (c : Char) : List Char :=
  match letterEscapes.lookup c with
  | some letter => ['\\', letter]
  | none =>
    let n := c.toNat
    if n < 0x20 || (asciiOnly && n == 0x7F) then unitEscape n
    else if n < 0x80 || ! asciiOnly then [c]
    else if n < 0x10000 then unitEscape n
    else
      unitEscape (0xD800 + (n - 0x10000) / 0x400) ++ unitEscape (0xDC00 + (n - 0x10000) % 0x400)

/-- A glyph inside a string. An unpaired half can be written in ASCII only,
otherwise it is replaced. -/
def writeGlyph (asciiOnly : Bool) : Glyph → List Char
  | .char c => writeChar asciiOnly c
  | .half unit => if asciiOnly then unitEscape unit.toNat else ['\ufffd']

/-- A string in quotes. -/
def writeString (style : Style) (s : Prose) : List Char :=
  '"' :: s.flatMap (writeGlyph style.asciiOnly) ++ ['"']

/-! ## Numbers -/

/-- A double as its shortest text. -/
def writeDouble (x : Float) : List Char :=
  if x.isNaN then "NaN".toList
  else if x.isInf then (if x < 0 then "-Infinity" else "Infinity").toList
  else (shortestText x).toList

/-! ## Values -/

mutual

/-- Writes a value whose lines start at a depth. -/
def writeAt (style : Style) (depth : Nat) : Json → List Char
  | null => "null".toList
  | bool b => (if b then "true" else "false").toList
  | int n => (intText n).toList
  | double x => writeDouble x
  | str s => writeString style s
  | arr [] => ['[', ']']
  | arr (v :: rest) =>
    '[' :: style.break (depth + 1) [] ++ writeAt style (depth + 1) v
      ++ writeItems style (depth + 1) rest ++ style.break depth [] ++ [']']
  | obj [] => ['\x7b', '\x7d']
  | obj ((name, v) :: rest) =>
    '\x7b' :: style.break (depth + 1) [] ++ writeString style name ++ [':', ' ']
      ++ writeAt style (depth + 1) v ++ writeMembers style (depth + 1) rest
      ++ style.break depth [] ++ ['\x7d']

/-- Writes further items, each behind a comma. -/
def writeItems (style : Style) (depth : Nat) : List Json → List Char
  | [] => []
  | v :: rest =>
    ',' :: style.break depth [' '] ++ writeAt style depth v ++ writeItems style depth rest

/-- Writes further members, each behind a comma. -/
def writeMembers (style : Style) (depth : Nat) : Members → List Char
  | [] => []
  | (name, v) :: rest =>
    ',' :: style.break depth [' '] ++ writeString style name ++ [':', ' ']
      ++ writeAt style depth v ++ writeMembers style depth rest

end

/-- Writes a value. -/
def write (style : Style) (v : Json) : List Char := writeAt style 0 v

/-- `write` on strings. -/
def written (style : Style) (v : Json) : String := String.ofList (write style v)

example : write .compact (arr [int 1, obj [(Prose.ofString "a", null)]]) =
    "[1, \x7b\"a\": null\x7d]".toList := by decide +kernel

end Intake.Json
