import Intake.Number.Reading

/-!
# Arguments

The words of a command line: one file and options. An option may be cut
short while it stays unique, may carry its value behind an equals sign, and
switches of one letter may be run together.

* `Arguments.read` reads the words; `Stop` says why there is nothing to run.
* `Word.ofString` tells files and options apart.
-/

namespace Intake.CommandLine

open Number

/-- What is asked for. -/
structure Arguments where
  file : String := ""
  mime : Option String := none
  model : Option String := none
  maxPages : Option Int := none
  textTimeout : Option String := none
  logFolder : Option String := none
  output : Option String := none
  noModel : Bool := false
  interactive : Bool := false
  verbose : Bool := false

/-- Why there is nothing to run. -/
inductive Stop where
  /-- Help was asked for. -/
  | help
  | misuse
  deriving DecidableEq, Repr

/-- An option without a value. -/
inductive Switch where
  | help
  | noModel
  | interactive
  | verbose
  deriving DecidableEq, Repr

/-- An option with a value. -/
inductive Field where
  | mime
  | model
  | maxPages
  | textTimeout
  | logFolder
  | output
  deriving DecidableEq, Repr

/-- An option. -/
inductive Choice where
  | switch (s : Switch)
  | field (f : Field)
  deriving DecidableEq, Repr

/-- The options by their names. -/
def choices : List (String × Choice) :=
  [("-h", .switch .help), ("--help", .switch .help), ("--mime", .field .mime),
   ("--no-llm", .switch .noModel), ("--model", .field .model),
   ("--max-ocr-pages", .field .maxPages), ("--text-timeout", .field .textTimeout),
   ("-i", .switch .interactive), ("--interactive", .switch .interactive),
   ("-v", .switch .verbose), ("--verbose", .switch .verbose),
   ("--log-dir", .field .logFolder), ("-o", .field .output), ("--output", .field .output)]

/-- The option of a name. -/
def choice? (name : List Char) : Option Choice := choices.lookup (String.ofList name)

/-! ## Words -/

/-- A word of the command line. -/
inductive Word where
  | plain (s : String)
  /-- No option comes behind it. -/
  | divider
  /-- An option and the value behind its equals sign, if there is one. -/
  | choice (c : Choice) (value : Option (List Char))
  /-- An option of one letter and what is run together with it. -/
  | letters (c : Choice) (rest : List Char)
  | unknown
  | ambiguous
  deriving DecidableEq, Repr

namespace Word

/-- Cuts a word at its first equals sign. -/
def cutValue (s : List Char) : List Char × Option (List Char) :=
  match s.span (· != '=') with
  | (name, _ :: value) => (name, some value)
  | (name, []) => (name, none)

/-- The options a word may stand for, short of its full name. -/
def candidates (s : List Char) : List Word :=
  match s with
  | '-' :: '-' :: _ =>
    let (name, value) := cutValue s
    (choices.filter fun (full, _) => name.isPrefixOf full.toList).map fun (_, c) => choice c value
  | _ => (choice? (s.take 2)).toList.map fun c => letters c (s.drop 2)

/-- Whether a word is a negative number, and so no option. -/
def isNegativeNumber (s : List Char) : Bool :=
  match s with
  | '-' :: rest =>
    let rest := if rest.getLast? == some '\n' then rest.dropLast else rest
    match rest.span Text.isDecimal with
    | (whole, []) => ! whole.isEmpty
    | (_, '.' :: places) => ! places.isEmpty && places.all Text.isDecimal
    | _ => false
  | _ => false

/-- What a word that begins with a hyphen stands for. -/
def ofHyphened (s : List Char) : Word :=
  match choice? s, (cutValue s).2.isSome, choice? (cutValue s).1 with
  | some c, _, _ => choice c none
  | none, true, some c => choice c (cutValue s).2
  | _, _, _ =>
    match candidates s with
    | [w] => w
    | _ :: _ => ambiguous
    | [] => if isNegativeNumber s || s.contains ' ' then plain (String.ofList s) else unknown

/-- What a word in front of the divider stands for. -/
def ofString (s : String) : Word :=
  match s.toList with
  | ['-'] => plain s
  | '-' :: rest => ofHyphened ('-' :: rest)
  | _ => plain s

/-- The words of a command line. Behind the divider all are plain. -/
def ofStrings : List String → List Word
  | [] => []
  | s :: rest => if s == "--" then divider :: rest.map plain else ofString s :: ofStrings rest

end Word

/-! ## Reading -/

/-- What an option asks for: switches, and a field with the value it
carries, if it carries one. -/
structure Asked where
  switches : List Switch := []
  field : Option (Field × Option String) := none
  /-- Some letter has no meaning. -/
  surplus : Bool := false

/-- What an option of one letter asks for together with what is run
together with it. -/
def together : Choice → List Char → Option Asked
  | .field f, value => some { field := some (f, some (String.ofList value)) }
  | .switch s, [] => some { switches := [s] }
  | .switch s, c :: rest =>
    if c = '-' then none
    else
      match choice? ['-', c], rest with
      | none, _ => some { switches := [s], surplus := true }
      | some (.field f), [] => some { switches := [s], field := some (f, none) }
      | some (.field f), '=' :: value =>
        some { switches := [s], field := some (f, some (String.ofList value)) }
      | some (.switch _), '=' :: _ => none
      | some c, rest => (together c rest).map fun a => { a with switches := s :: a.switches }

/-- What an option asks for. A switch carries no value. -/
def asked : Choice → Option (List Char) → Option Asked
  | .switch s, none => some { switches := [s] }
  | .switch _, some _ => none
  | .field f, value => some { field := some (f, value.map String.ofList) }

/-- Arguments that are read in part. -/
structure Partly where
  arguments : Arguments := {}
  hasFile : Bool := false
  /-- The word before was the file. -/
  atFile : Bool := false
  /-- Some word has no meaning. -/
  surplus : Bool := false
  /-- A field that waits for its value, with the option that named it. -/
  wanted : Option (Asked × Field) := none

namespace Partly

/-- Turns switches on. -/
def turnOn (a : Partly) (switches : List Switch) : Except Stop Partly :=
  if switches.contains .help then .error .help
  else
    .ok { a with
      atFile := false
      arguments := { a.arguments with
        noModel := a.arguments.noModel || switches.contains .noModel
        interactive := a.arguments.interactive || switches.contains .interactive
        verbose := a.arguments.verbose || switches.contains .verbose } }

/-- Sets a field. A page cap has to be a number. -/
def set (a : Partly) (f : Field) (value : String) : Except Stop Partly :=
  let put (arguments : Arguments) : Except Stop Partly :=
    .ok { a with atFile := false, arguments := arguments }
  match f with
  | .mime => put { a.arguments with mime := some value }
  | .model => put { a.arguments with model := some value }
  | .textTimeout => put { a.arguments with textTimeout := some value }
  | .logFolder => put { a.arguments with logFolder := some value }
  | .output => put { a.arguments with output := some value }
  | .maxPages =>
    match readInt? value.toList with
    | some n => put { a.arguments with maxPages := some n }
    | none => .error .misuse

/-- Takes a plain word: the first is the file. -/
def plain (a : Partly) (s : String) : Partly :=
  if a.hasFile then { a with surplus := true, atFile := false }
  else { a with arguments := { a.arguments with file := s }, hasFile := true, atFile := true }

/-- Takes the divider, which belongs to the file before or behind it. -/
def divider (a : Partly) : Partly :=
  { a with surplus := a.surplus || (a.hasFile && ! a.atFile), atFile := false }

/-- Takes what an option asks for but its field. -/
def ask (a : Partly) (o : Asked) : Except Stop Partly :=
  ({ a with surplus := a.surplus || o.surplus }).turnOn o.switches

/-- Takes an option. A field without a value waits for the next word. -/
def option (a : Partly) (o : Option Asked) : Except Stop Partly :=
  match o with
  | none => .error .misuse
  | some o =>
    match o.field with
    | none => a.ask o
    | some (f, some value) => do (← a.ask o).set f value
    | some (f, none) => .ok { a with wanted := some (o, f) }

/-- Takes the next word. -/
def step (a : Partly) (w : Word) : Except Stop Partly :=
  match a.wanted, w with
  | some (o, f), .plain value => do (← ({ a with wanted := none }).ask o).set f value
  | some _, _ => .error .misuse
  | none, .plain s => .ok (a.plain s)
  | none, .divider => .ok a.divider
  | none, .choice c value => a.option (asked c value)
  | none, .letters c rest => a.option (together c rest)
  | none, .unknown => .ok { a with surplus := true, atFile := false }
  | none, .ambiguous => .error .misuse

end Partly

/-- Reads a command line: exactly one file, and options around it. -/
def Arguments.read (words : List String) : Except Stop Arguments := do
  let words := Word.ofStrings words
  if words.contains .ambiguous then throw .misuse
  let a ← words.foldlM Partly.step {}
  if a.hasFile && ! a.surplus && a.wanted.isNone then return a.arguments else throw .misuse

end Intake.CommandLine
