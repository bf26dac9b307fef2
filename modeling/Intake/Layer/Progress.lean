import Intake.Layer.PageReading

/-!
# Reading pages with progress

The same reading as a background worker that tells how far it is: one
event when the page images exist, one as each page starts, and a last one
that carries the result or the fault.

* `Progress` is an event; `Plan` is what a worker still has to do, up to
  the next program it starts.
* `Plan.forDocument` is the worker's whole plan.
* `Plan.complete` carries a plan out at once; `Plan.advance` carries it on
  until it waits for a program.
-/

namespace Intake

open Text

/-- Which part of the work an event tells of. -/
inductive Phase where
  | none
  | rasterize
  | ocr
  | other (name : String)
  deriving DecidableEq, Repr

/-- The name of a phase. -/
def Phase.name : Phase → String
  | none => ""
  | rasterize => "rasterize"
  | ocr => "ocr"
  | other name => name

/-- A progress event. -/
structure Progress where
  phase : Phase := .none
  page : Nat := 0
  /-- The number of pages, zero until it is known. -/
  total : Nat := 0
  /-- The last event. -/
  done : Bool := false
  /-- The result, held by the last event. -/
  text : String := ""
  table : String := ""
  fault : Option Fault := none

namespace Progress

/-- The last event of a reading that gave a result. -/
def result (p : Page) : Progress := { done := true, text := p.text, table := p.table }

/-- The last event of a reading that failed. -/
def failed (e : Fault) : Progress := { done := true, fault := some e }

/-- All page images exist. -/
def rendered (total : Nat) : Progress := { phase := .rasterize, page := total, total := total }

/-- A page starts. -/
def started (page total : Nat) : Progress := { phase := .ocr, page := page, total := total }

end Progress

/-- What a worker still has to do. -/
inductive Plan where
  /-- The last event; the stream of events is closed behind it. -/
  | finish (last : Progress)
  /-- An event is put out unless the cancellation has fired. -/
  | emit (p : Progress) (next : Plan)
  /-- A record is taken. -/
  | note (level : Level) (text : String) (next : Plan)
  /-- A program is run; how it ends decides how the work goes on. -/
  | run (r : Request) (next : Except Fault Yield → Plan)

namespace Plan

/-! ## Plans -/

/-- Says that the work ended with a fault. -/
def stopText (e : Fault) : String := "OCR worker stopped: " ++ Logbook.faultText e

/-- The work ends with a fault. A worker runs on its own, with no caller who could
be given up, so that every fault is told by its last event. -/
def stop (e : Fault) : Plan := note .debug (stopText e) (finish (.failed e))

/-- Reads the images from a page on; the pages read so far are held. -/
def readImages (total page : Nat) (held : List Page) : List String → Plan
  | [] => finish (.result (Pages.merge held))
  | image :: rest =>
    emit (.started page total) <| run (PageReading.readRequest image) fun ended =>
      match ended.bind fun made => PageReading.pageOf made.output with
      | .ok read => readImages total (page + 1) (held ++ [read]) rest
      | .error e =>
        if e.isTool then
          note .warning (PageReading.skipText page total e) (readImages total (page + 1) held rest)
        else stop e

/-- Reads a PDF. -/
def readPdf (scratch : String) (cap : Int) : Plan :=
  run (PageReading.renderRequest scratch cap) fun ended =>
    match ended with
    | .error e => stop e
    | .ok made =>
      match PageReading.images scratch made.files with
      | [] => finish (.result {})
      | found => emit (.rendered found.length) (readImages found.length 1 [] found)

/-- Reads an image. -/
def readPicture (scratch : String) : Plan :=
  emit (.started 1 1) <| run (PageReading.readRequest (scratch ++ "/input.png")) fun ended =>
    match ended.bind fun made => PageReading.pageOf made.output with
    | .ok read => finish (.result (PageReading.normalPage read))
    | .error e => stop e

/-- Reads a document. What is no image is taken for a PDF. -/
def forDocument (scratch : String) (data : Utf8.Bytes) (mime : String) (cap : Int) : Plan :=
  if data.isEmpty then finish (.result {})
  else if Mime.isImage mime then readPicture scratch
  else readPdf scratch (PageReading.capInForce cap)

/-! ## Carrying plans out -/

/-- Carries a plan out and gives all its events. -/
def complete : Plan → StateM Site (List Progress)
  | finish last => fun s => ([last], s)
  | emit p next => fun s =>
    if s.fired then ([.failed .cancelled], s.note .progress .debug (stopText .cancelled))
    else
      let (events, s) := next.complete s
      (p :: events, s)
  | note level text next => fun s => next.complete (s.note .progress level text)
  | run r next => fun s =>
    let (ended, s) := Shell.run r s
    (next ended).complete s

end Plan

/-- A worker that stopped for the moment. -/
inductive Stage where
  /-- Its last event is out. -/
  | over
  /-- It waits for a program that was started as this call. -/
  | waits (r : Request) (script : Script) (call : Nat) (next : Except Fault Yield → Plan)

namespace Plan

/-- Carries a plan on until it waits. The flags say whether the worker's
cancellation has fired, and whether it waits for programs that end at once. -/
def advance (fired waits : Bool) : Plan → StateM Site (List Progress × Stage)
  | finish last => fun s => (([last], .over), s)
  | emit p next => fun s =>
    if fired then
      (([.failed .cancelled], .over), s.note .progress .debug (stopText .cancelled))
    else
      let ((events, stage), s) := next.advance fired waits s
      ((p :: events, stage), s)
  | note level text next => fun s => next.advance fired waits (s.note .progress level text)
  | run r next => fun s =>
    if fired then (next (.error .cancelled)).advance fired waits s
    else
      match Shell.launch r s with
      | (.error e, s) => (next (.error e)).advance fired waits s
      | (.ok script, s) =>
        match script.ending, waits with
        | .atOnce, false => (next (script.result r)).advance fired waits s
        | _, _ => (([], .waits r script (s.calls.length - 1) next), s)

end Plan
end Intake
