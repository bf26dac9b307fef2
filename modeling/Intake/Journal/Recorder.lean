import Intake.Fault
import Intake.FileName
import Intake.Journal.Basic
import Intake.Text.LetterCase

/-!
# Recorders

The recorder of extraction runs: it heads every run and every layer, takes
their times and opens one log file for each run.

* `Recorder.obtain` gives the one recorder of a process.
* `Recorder.startRun` to `Recorder.endRun` report a run to its journal.
-/

namespace Intake

open Text Number

/-- The state of a recorder beside its journal. -/
structure Recorder where
  verbose : Bool := false
  /-- The folder of log files; without one none is written. -/
  folder : Option String := none
  /-- When the run and the layer started. -/
  runStart : Option Float := none
  layerStart : Option Float := none
  /-- The log file of the latest run. -/
  logFile : Option String := none
  deriving Inhabited

/-- A journal with its recorder and the clock. -/
structure Logbook where
  clock : Float := 0
  /-- The reading of the stopwatch when the clock stood at zero. -/
  stopwatch : Float := 0
  journal : Journal := {}
  recorder : Recorder := {}
  /-- Whether the recorder is the one that is handed out. -/
  current : Bool := false
  deriving Inhabited

namespace Logbook

/-- Takes a record. -/
def note (b : Logbook) (source : Source) (level : Level) (text : String) : Logbook :=
  { b with journal := b.journal.emit b.clock ⟨source, level, text⟩ }

/-- A record of the recorder itself. -/
def report (b : Logbook) (level : Level) (text : String) : Logbook := b.note .run level text

/-- Moves the clock. -/
def tick (b : Logbook) (seconds : Float) : Logbook := { b with clock := b.clock + seconds }

/-- The time of day in brackets. -/
def stamp (b : Logbook) : String := "[" ++ (b.journal.moment b.clock).clockText ++ "]"

/-- The stopwatch. -/
def seconds (b : Logbook) : Float := b.stopwatch + b.clock

/-- The time since a reading of the stopwatch, nothing if there is none. -/
def elapsed (b : Logbook) (since : Option Float) : String :=
  match since with
  | some start => fixed 2 (b.seconds - start) ++ "s"
  | none => ""

/-! ## Handing out -/

/-- The level from which the console shows records. -/
def levelOf (verbose : Bool) : Level := if verbose then .debug else .info

/-- Makes the console show everything or only the plain course. -/
def setVerbose (b : Logbook) (verbose : Bool) : Logbook :=
  { b with
    recorder := { b.recorder with verbose := verbose }
    journal := { b.journal with consoleLevel := b.journal.consoleLevel.map fun _ => levelOf verbose } }

/-- Hands the recorder out. The one that is handed out already is kept: it
may become verbose and may get a folder, and loses neither. A new one
attaches the console unless one is attached. -/
def obtain (b : Logbook) (verbose : Bool) (folder : Option String) : Logbook :=
  if b.current then
    let b := if verbose && ! b.recorder.verbose then b.setVerbose true else b
    { b with recorder := { b.recorder with folder := b.recorder.folder.or folder } }
  else
    { b with
      current := true
      recorder := { verbose := verbose, folder := folder }
      journal := { b.journal with
        consoleLevel := b.journal.consoleLevel.or (some (levelOf verbose)) } }

/-- Gives the recorder up and closes its log files. The console stays. -/
def giveUp (b : Logbook) : Logbook :=
  { b with
    current := false
    journal := if b.current then { b.journal with openFiles := [] } else b.journal }

/-! ## Runs -/

/-- The log file of a run. -/
def logPath (b : Logbook) (folder file : String) : String :=
  let stem := String.ofList (FileName.stem file.toList)
  FileName.inside folder ((if stem.isEmpty then "document" else stem) ++ "_"
    ++ (b.journal.moment b.clock).fileText ++ ".log")

/-- Opens the log file of a run when there is a folder for it. -/
def openLog (b : Logbook) (file : String) : Logbook :=
  match b.recorder.folder with
  | none => b
  | some folder =>
    let path := b.logPath folder file
    { b with
      recorder := { b.recorder with logFile := some path }
      journal := { b.journal with
        openFiles := b.journal.openFiles ++ [path]
        files := Journal.appendFile b.journal.files path "" } }

/-- Heads a run. -/
def startRun (b : Logbook) (file : String) : Logbook :=
  let b := { b with recorder := { b.recorder with runStart := some b.seconds } }
  let b := b.openLog file
  b.report .info (b.stamp ++ " Extracting: " ++ file)

/-- The lines of a block of figures. -/
def figureLines (figures : Journal.Fields) : List String :=
  figures.flatMap fun (name, v) =>
    match v with
    | .obj members =>
      ("  " ++ name ++ ":") :: members.map fun (key, w) =>
        "    " ++ key.display ++ ": " ++ Journal.valueText w
    | v => ["  " ++ name ++ ": " ++ Journal.valueText v]

/-- Reports a block of figures. -/
def summary (b : Logbook) (figures : Journal.Fields) : Logbook :=
  b.report .info ("\n".intercalate ("SUMMARY" :: figureLines figures))

/-- Ends a run with its figures. -/
def endRun (b : Logbook) (success : Bool) (figures : Journal.Fields) : Logbook :=
  let b := if figures.isEmpty then b else b.summary figures
  let b := b.report .info ("Extraction " ++ (if success then "COMPLETE" else "COMPLETE WITH ERRORS")
    ++ " [" ++ b.elapsed b.recorder.runStart ++ "]")
  match b.recorder.logFile with
  | some path => b.report .info ("Log: " ++ path)
  | none => b

/-! ## Layers -/

/-- The part of a text behind its last slash. -/
def lastPart (s : String) : String :=
  String.ofList (s.toList.reverse.takeWhile (· != '/')).reverse

/-- Heads a layer. -/
def startLayer (b : Logbook) (layer detail : String) : Logbook :=
  let b := { b with recorder := { b.recorder with layerStart := some b.seconds } }
  b.report .info
    (Text.capitals layer ++ if detail.isEmpty then "" else " (" ++ lastPart detail ++ ")")

/-- Reports what a layer gave. -/
def layerResult (b : Logbook) (result : String) (figures : Journal.Fields) : Logbook :=
  let time := b.elapsed b.recorder.layerStart
  b.report .info ("  Done: " ++ " | ".intercalate
    (result :: (if figures.isEmpty then [] else [Journal.fieldsText Journal.valueText figures])
      ++ (if time.isEmpty then [] else ["[" ++ time ++ "]"])))

/-- Reports something for the curious. -/
def debug (b : Logbook) (message : String) (fields : Journal.Fields) : Logbook :=
  b.report .debug (b.stamp ++ " " ++ Journal.withFields message fields)

/-- Reports a warning. -/
def warning (b : Logbook) (message : String) (fields : Journal.Fields) : Logbook :=
  b.report .warning (b.stamp ++ " WARN: " ++ Journal.withFields message fields)

/-- A fault with the name of its kind. -/
def faultText (e : Fault) : String := e.kindName ++ ": " ++ e.message

/-- Reports an error and the fault behind it. -/
def error (b : Logbook) (message : String) (cause : Option Fault) (fields : Journal.Fields) :
    Logbook :=
  let text := Journal.withFields message fields
  b.report .error (b.stamp ++ " ERROR: " ++
    match cause with
    | some e => text ++ " | " ++ faultText e
    | none => text)

end Logbook
end Intake
