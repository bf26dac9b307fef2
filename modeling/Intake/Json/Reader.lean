import Intake.Json.Basic
import Intake.Number.Reading

/-!
# Reading JSON

Reads a text as one JSON value. Beyond the standard it takes `NaN`,
`Infinity` and `-Infinity`, and halves of surrogate pairs that an escape
names alone; it refuses very long whole numbers and very deep nesting.

* `Json.read` is the reader.
* A refusal holds its cause and the text that was left, so that its
  position can be told; `Refusal.message` words it.
-/

namespace Intake.Json

open Text Number

/-! ## Refusals -/

/-- What is wrong at a position. -/
inductive Problem where
  | value
  | name
  | colon
  | comma
  | extra
  | unterminated
  | control
  | escape
  | unit
  | mark
  deriving DecidableEq, Repr

/-- The wording of a problem. -/
def Problem.message : Problem → String
  | value => "Expecting value"
  | name => "Expecting property name enclosed in double quotes"
  | colon => "Expecting ':' delimiter"
  | comma => "Expecting ',' delimiter"
  | extra => "Extra data"
  | unterminated => "Unterminated string starting at"
  | control => "Invalid control character at"
  | escape => "Invalid \\escape"
  | unit => "Invalid \\uXXXX escape"
  | mark => "Unexpected UTF-8 BOM (decode using utf-8-sig)"

/-- Why a text is not read: a problem with the text left where it occurs, a
whole number of too many digits, or too many open brackets. -/
inductive Refusal where
  | syntactic (problem : Problem) (left : List Char)
  | tooLong (e : TooLong)
  | tooDeep (inArray : Bool)
  deriving DecidableEq, Repr

/-- A position as line, column and offset; lines and columns count from one. -/
def position (doc left : List Char) : Nat × Nat × Nat :=
  let offset := doc.length - left.length
  let before := doc.take offset
  (before.count '\n' + 1, (before.reverse.takeWhile (· != '\n')).length + 1, offset)

/-- The wording of a refusal of `doc`. -/
def Refusal.message (doc : List Char) : Refusal → String
  | .syntactic problem left =>
    let (line, column, offset) := position doc left
    s!"{problem.message}: line {toString line} column {toString column} (char {toString offset})"
  | .tooLong e => e.message
  | .tooDeep inArray =>
    let kind := if inArray then "array" else "object"
    s!"maximum recursion depth exceeded while decoding a JSON {kind} from a unicode string"

/-- What a reading step yields: a value and the text after it. -/
abbrev Step (α : Type) := Except Refusal (α × List Char)

/-! ## Strings -/

/-- The value of a hexadecimal digit. -/
def hexValue? (c : Char) : Option Nat :=
  if c.isDigit then some (c.toNat - '0'.toNat)
  else if 'a' ≤ c && c ≤ 'f' then some (c.toNat - 'a'.toNat + 10)
  else if 'A' ≤ c && c ≤ 'F' then some (c.toNat - 'A'.toNat + 10)
  else none

/-- The number written by four hexadecimal digits. -/
def hexUnit? (a b c d : Char) : Option Nat :=
  match hexValue? a, hexValue? b, hexValue? c, hexValue? d with
  | some a, some b, some c, some d => some (((a * 16 + b) * 16 + c) * 16 + d)
  | _, _, _, _ => none

/-- The glyph of a 16-bit unit. -/
def unitGlyph (n : Nat) : Glyph :=
  if 0xD800 ≤ n && n < 0xE000 then .half n.toUInt16 else .char (Char.ofNat n)

/-- The character a backslash and a letter stand for. -/
def escaped? (c : Char) : Option Char :=
  if c == '"' || c == '\\' || c == '/' then some c
  else if c == 'b' then some '\x08'
  else if c == 'f' then some '\x0c'
  else if c == 'n' then some '\n'
  else if c == 'r' then some '\r'
  else if c == 't' then some '\t'
  else none

/-- Reads the rest of a string whose opening quote stands in front of
`start`. The glyphs read so far are given in reverse. -/
def scanString (start : List Char) (acc : List Glyph) : List Char → Step (List Glyph)
  | [] => .error (.syntactic .unterminated start)
  | c :: rest =>
    if c == '"' then .ok (acc.reverse, rest)
    else if c == '\\' then
      match rest with
      | [] => .error (.syntactic .unterminated start)
      | e :: after =>
        if e == 'u' then
          match after with
          | h₁ :: h₂ :: h₃ :: h₄ :: tail =>
            match hexUnit? h₁ h₂ h₃ h₄, tail.isEmpty with
            | some n, false => scanString start (unitGlyph n :: acc) tail
            | _, _ => .error (.syntactic .unit (e :: after))
          | _ => .error (.syntactic .unit (e :: after))
        else match escaped? e with
          | some d => scanString start (.char d :: acc) after
          | none => .error (.syntactic .escape (c :: rest))
    else if c.toNat ≤ 0x1F then .error (.syntactic .control (c :: rest))
    else scanString start (.char c :: acc) rest

/-- Whether a unit is the first half of a pair. -/
def isHigh (u : UInt16) : Bool := 0xD800 ≤ u && u < 0xDC00

/-- Whether a unit is the second half of a pair. -/
def isLow (u : UInt16) : Bool := 0xDC00 ≤ u && u < 0xE000

/-- The character of two halves. -/
def pairChar (high low : UInt16) : Char :=
  Char.ofNat (0x10000 + (high.toNat - 0xD800) * 0x400 + (low.toNat - 0xDC00))

/-- Joins neighbouring halves that make a pair. -/
def joinHalves : List Glyph → Prose
  | [] => []
  | .half high :: .half low :: rest =>
    if isHigh high && isLow low then .char (pairChar high low) :: joinHalves rest
    else .half high :: joinHalves (.half low :: rest)
  | g :: rest => g :: joinHalves rest

/-- Reads a string after its opening quote. -/
def readString (rest : List Char) : Step Prose :=
  match scanString ('"' :: rest) [] rest with
  | .ok (glyphs, left) => .ok (joinHalves glyphs, left)
  | .error e => .error e

/-! ## Numbers -/

/-- Cuts the digits off the front. -/
def spanDigits (s : List Char) : List Char × List Char := s.span Char.isDigit

/-- The whole part of a number: no further digit follows a leading zero. -/
def wholePart : List Char → List Char × List Char
  | '0' :: rest => (['0'], rest)
  | s => spanDigits s

/-- The places after a point; a point without digits is left. -/
def fractionPart : List Char → List Char × List Char
  | '.' :: rest =>
    match spanDigits rest with
    | ([], _) => ([], '.' :: rest)
    | found => found
  | s => ([], s)

/-- The exponent of a number, if one follows. -/
def exponentPart (s : List Char) : Option Int × List Char :=
  match s with
  | [] => (none, s)
  | c :: rest =>
    if c == 'e' || c == 'E' then
      let (negative, body) := match rest with
        | '-' :: body => (true, body)
        | '+' :: body => (false, body)
        | body => (false, body)
      match spanDigits body with
      | ([], _) => (none, s)
      | (ds, left) =>
        let n : Nat := ofDigits (ds.map fun c => c.toNat - '0'.toNat)
        (some (if negative then -(n : Int) else n), left)
    else (none, s)

/-- Reads a number; `none` when there is none. A number with places or an
exponent is a double. -/
def readNumber (s : List Char) : Option (Step Json) :=
  let (negative, body) := match s with
    | '-' :: body => (true, body)
    | body => (false, body)
  match wholePart body with
  | ([], _) => none
  | (whole, left) =>
    let (fraction, left) := fractionPart left
    let (exponent, left) := exponentPart left
    if fraction.isEmpty && exponent.isNone then
      match ofAsciiDigits whole with
      | .ok n => some (.ok (.int (if negative then -(n : Int) else n), left))
      | .error e => some (.error (.tooLong e))
    else
      let n := ofDigits ((whole ++ fraction).map fun c => c.toNat - '0'.toNat)
      let e : Int := exponent.getD 0 - fraction.length
      some (.ok (.double (toDouble ⟨negative, n, e⟩), left))

/-! ## Values -/

/-- The constants and their names. -/
def constants : List (List Char × Json) :=
  [("null".toList, .null), ("true".toList, .bool true), ("false".toList, .bool false),
   ("NaN".toList, .double (0.0 / 0.0)), ("Infinity".toList, .double (1.0 / 0.0)),
   ("-Infinity".toList, .double (-1.0 / 0.0))]

/-- Reads a constant or a number. -/
def readAtom (s : List Char) : Step Json :=
  match constants.find? fun entry => entry.1.isPrefixOf s with
  | some (name, v) => .ok (v, s.drop name.length)
  | none => (readNumber s).getD (.error (.syntactic .value s))

/-- Whether a character may stand between tokens. -/
def isSpace (c : Char) : Bool := c == ' ' || c == '\t' || c == '\n' || c == '\r'

/-- Drops what may stand between tokens. -/
def skipSpace (s : List Char) : List Char := s.dropWhile isSpace

/-- How many brackets may be open at a time. The number stands for a limit that
is not of the format's making: it is what the stack of the reader's own calls
has room for, so it depends on how deep the caller already is and on the
machine. A text that goes deeper is refused like any other that is no JSON. -/
def maxDepth : Nat := 1000

mutual

/-- Reads a value with `depth` brackets open. Each step takes one unit of
fuel; `read` gives more than any text can use. -/
def readValue (fuel depth : Nat) (s : List Char) : Step Json :=
  match fuel with
  | 0 => .error (.syntactic .value s)
  | fuel + 1 =>
    match s with
    | '"' :: rest =>
      match readString rest with
      | .ok (p, left) => .ok (.str p, left)
      | .error e => .error e
    | '[' :: rest =>
      if depth ≥ maxDepth then .error (.tooDeep true)
      else match skipSpace rest with
        | ']' :: left => .ok (.arr [], left)
        | body => readItems fuel (depth + 1) [] body
    | '\x7b' :: rest =>
      if depth ≥ maxDepth then .error (.tooDeep false)
      else match skipSpace rest with
        | '\x7d' :: left => .ok (.obj [], left)
        | body => readMembers fuel (depth + 1) [] body
    | s => readAtom s

/-- Reads the items of an array up to its closing bracket. -/
def readItems (fuel depth : Nat) (items : List Json) (s : List Char) : Step Json :=
  match fuel with
  | 0 => .error (.syntactic .value s)
  | fuel + 1 =>
    match readValue fuel depth s with
    | .error e => .error e
    | .ok (v, left) =>
      match skipSpace left with
      | ']' :: left => .ok (.arr (v :: items).reverse, left)
      | ',' :: left => readItems fuel depth (v :: items) (skipSpace left)
      | left => .error (.syntactic .comma left)

/-- Reads the members of an object up to its closing bracket. -/
def readMembers (fuel depth : Nat) (members : Members) (s : List Char) : Step Json :=
  match fuel with
  | 0 => .error (.syntactic .name s)
  | fuel + 1 =>
    match s with
    | '"' :: rest =>
      match readString rest with
      | .error e => .error e
      | .ok (name, left) =>
        match skipSpace left with
        | ':' :: left =>
          match readValue fuel depth (skipSpace left) with
          | .error e => .error e
          | .ok (v, left) =>
            match skipSpace left with
            | '\x7d' :: left => .ok (.obj ((name, v) :: members).reverse, left)
            | ',' :: left => readMembers fuel depth ((name, v) :: members) (skipSpace left)
            | left => .error (.syntactic .comma left)
        | left => .error (.syntactic .colon left)
    | s => .error (.syntactic .name s)

end

/-- Reads a whole text as one value. -/
def read (doc : List Char) : Except Refusal Json :=
  if doc.head? = some '\ufeff' then .error (.syntactic .mark doc)
  else
    let body := skipSpace doc
    match readValue (2 * body.length + 2) 0 body with
    | .error e => .error e
    | .ok (v, left) =>
      match skipSpace left with
      | [] => .ok v
      | left => .error (.syntactic .extra left)

end Intake.Json
