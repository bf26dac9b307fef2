import Intake.Calendar.Moment
import Intake.Json.Basic
import Intake.Text.Quoted

/-!
# Journals

What a run reports about itself. A record is shown on the console from a
level on and is written to every open log file.

* `Level` orders records by weight; `Source` says which part reports.
* `Journal.emit` takes a record; `records_emit` says that none is lost.
* `Journal.valueText` is the spelling of values in records.
-/

namespace Intake

open Text Number Calendar

/-- The weight of a record. -/
inductive Level where
  | debug
  | info
  | warning
  | error
  | critical
  deriving DecidableEq, Repr, Inhabited

namespace Level

/-- All levels, the lightest first. -/
def all : List Level := [debug, info, warning, error, critical]

/-- The name of a level. -/
def name : Level → String
  | debug => "DEBUG"
  | info => "INFO"
  | warning => "WARNING"
  | error => "ERROR"
  | critical => "CRITICAL"

/-- The mark of a level in a log file. -/
def mark (l : Level) : String := String.ofList (l.name.toList.take 4)

/-- The place of a level in the order. -/
def rank : Level → Nat
  | debug => 0
  | info => 1
  | warning => 2
  | error => 3
  | critical => 4

/-- Whether a level is at least as heavy as another one. -/
def atLeast (l least : Level) : Bool := least.rank ≤ l.rank

end Level

/-- The part of the library that reports. -/
inductive Source where
  | run
  | program
  | tools
  | textLayer
  | pages
  | progress
  | reply
  | chat
  | session
  | store
  | loop
  deriving DecidableEq, Repr, Inhabited

/-- One report. -/
structure Record where
  source : Source
  level : Level
  text : String
  deriving DecidableEq, Repr, Inhabited

/-! ## Spelling of values -/

/-- The spelling of true and false. -/
def flagText (b : Bool) : String := if b then "True" else "False"

mutual

/-- A value inside a list or a map, where strings are quoted. -/
def Json.literal : Json → String
  | .null => "None"
  | .bool b => flagText b
  | .int n => intText n
  | .double x => shortestText x
  | .str s => quoted s.display
  | .arr [] => "[]"
  | .arr (v :: rest) => "[" ++ v.literal ++ literalItems rest ++ "]"
  | .obj [] => "\x7b\x7d"
  | .obj ((name, v) :: rest) =>
    "\x7b" ++ quoted name.display ++ ": " ++ v.literal ++ literalMembers rest ++ "\x7d"

/-- Further items of a list. -/
def literalItems : List Json → String
  | [] => ""
  | v :: rest => ", " ++ v.literal ++ literalItems rest

/-- Further entries of a map. -/
def literalMembers : List (Prose × Json) → String
  | [] => ""
  | (name, v) :: rest => ", " ++ quoted name.display ++ ": " ++ v.literal ++ literalMembers rest

end

namespace Journal

/-- A value in a record. A string stands as it is. -/
def valueText : Json → String
  | .str s => s.display
  | v => v.literal

/-- The longest string that is shown whole beside a message. -/
def maxShown : Nat := 50

/-- The longest list that is shown beside a message. -/
def maxListed : Nat := 5

/-- A value beside a message: long strings are cut, long lists counted. -/
def briefText : Json → String
  | .str s =>
    if s.length > maxShown then Prose.display (s.take (maxShown - 3)) ++ "..." else s.display
  | .arr items =>
    if items.length > maxListed then "[" ++ toString items.length ++ " items]"
    else valueText (.arr items)
  | v => valueText v

/-- Named values. -/
abbrev Fields := List (String × Json)

/-- Named values in one line. -/
def fieldsText (show_ : Json → String) (fields : Fields) : String :=
  ", ".intercalate (fields.map fun (name, v) => name ++ "=" ++ show_ v)

/-- A message with named values behind it. -/
def withFields (message : String) (fields : Fields) : String :=
  if fields.isEmpty then message else message ++ " | " ++ fieldsText briefText fields

end Journal

/-! ## Journals -/

/-- The records of a run and where they were shown. -/
structure Journal where
  /-- The moment at which the clock stood at zero. -/
  start : Moment := ⟨0⟩
  /-- The level from which the console shows records, `none` before any
  console is attached. -/
  consoleLevel : Option Level := none
  console : String := ""
  /-- The paths of the open log files. A path that was opened twice is
  written twice. -/
  openFiles : List String := []
  /-- The contents of log files by path. -/
  files : List (String × String) := []
  records : List Record := []
  deriving Inhabited

namespace Journal

/-- The moment of a clock reading. -/
def moment (j : Journal) (clock : Float) : Moment := j.start.after clock

/-- The level from which records are shown while no console is attached. -/
def unattachedLevel : Level := .warning

/-- Appends to the content of a path. -/
def appendFile (files : List (String × String)) (path text : String) : List (String × String) :=
  if files.any (·.1 == path) then
    files.map fun (p, content) => if p == path then (p, content ++ text) else (p, content)
  else files ++ [(path, text)]

/-- A record as a line of a log file. -/
def fileLine (j : Journal) (clock : Float) (r : Record) : String :=
  (j.moment clock).stampText ++ " [" ++ r.level.mark ++ "] " ++ r.text ++ "\n"

/-- Takes a record. -/
def emit (j : Journal) (clock : Float) (r : Record) : Journal :=
  let shown := r.level.atLeast (j.consoleLevel.getD unattachedLevel)
  { j with
    console := if shown then j.console ++ r.text ++ "\n" else j.console
    files := j.openFiles.foldl (fun files path => appendFile files path (j.fileLine clock r)) j.files
    records := j.records ++ [r] }

theorem records_emit (j : Journal) (clock : Float) (r : Record) :
    (j.emit clock r).records = j.records ++ [r] := rfl

/-- Writes a line to the console that is no record. -/
def print (j : Journal) (line : String) : Journal := { j with console := j.console ++ line ++ "\n" }

end Journal
end Intake
