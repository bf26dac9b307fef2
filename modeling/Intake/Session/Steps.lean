import Intake.Hints.Reply
import Intake.Session.Basic

/-!
# Steps of a session

What the events of a running step change in a session. Each change is a
function of its own; which one applies, and what is started next, is
decided elsewhere.

* `pagesMoved`, `pagesRead` and `pagesFailed` are the changes of the pages'
  step.
* `replyGrown`, `replyEnded`, `replyRead` and `replyFailed` are those of
  the model's step; `modelReset` takes it back to its start.
-/

namespace Intake.Session

open Text

/-! ## The pages -/

/-- How far the pages' step is; an event of another part of the work tells
nothing. -/
def progressText (p : Progress) : Option String :=
  let count := toString p.page ++ "/" ++ toString p.total
  match p.phase with
  | .rasterize => some ("rasterizing " ++ count)
  | .ocr => some ("page " ++ count)
  | _ => none

/-- The pages' step is under way. -/
def pagesMoved (s : Session) (p : Progress) : Session :=
  { s with ocr := { s.ocr with detail := (progressText p).getD s.ocr.detail } }

/-- The pages' step has failed. -/
def pagesFailed (s : Session) (now : Float) (e : Fault) : Session :=
  { s with ocr := (s.ocr.timed now).fail e.message, hasError := true }

/-- The pages were read. Their text stands in for a missing text layer. -/
def pagesRead (s : Session) (now : Float) (p : Page) : Session :=
  let n := StepInfo.contentLength p.text
  { s with
    ocr := { s.ocr.timed now with
      status := .done
      detail := Tool.ocrEngine.name
      metric := StepInfo.charsText n
      logs := if n = 0 then s.ocr.logs else linesOf p.text }
    pages := p
    extractedText :=
      if n ≠ 0 ∧ s.extractedText.isEmpty then p.text else s.extractedText }

/-! ## The model -/

/-- The reply as far as it has arrived. -/
def replyText (s : Session) : String := String.join s.received

/-- A piece of the reply has arrived. -/
def replyGrown (s : Session) (piece : String) : Session :=
  if piece.isEmpty then s
  else
    let received := s.received ++ [piece]
    { s with received := received, llm := { s.llm with logs := linesOf (String.join received) } }

/-- The reply has arrived as a whole. -/
def replyEnded (s : Session) (now : Float) : Session :=
  { s with llm := { s.llm.timed now with metric := StepInfo.charsText s.replyText.length } }

/-- The reply was read. -/
def replyRead (s : Session) (h : Hints) : Session :=
  { s with hints := some h, llm := { s.llm with status := .done }, done := true }

/-- The reply is no JSON object. -/
def replyRefused (s : Session) (m : Reply.Malformed) : Session :=
  { s with
    llm := s.llm.fail ("parse error: " ++ (Fault.reply m.message s.replyText).message)
    hasError := true
    done := true }

/-- The reply broke off. -/
def replyFailed (s : Session) (now : Float) (e : Fault) : Session :=
  { s with llm := (s.llm.timed now).fail e.message, hasError := true, done := true }

/-- The model's step is taken back to its start. The failures of other
steps still count. -/
def modelReset (s : Session) : Session :=
  { s with
    received := []
    reply := none
    hints := none
    llm := {}
    done := false
    hasError := s.active.any fun k => k != .llm && decide ((s.info k).status = .failed)
    chosen := s.chosen.filter (·.1 != .llm) }

/-- The model's step starts. -/
def modelStarted (s : Session) (now : Float) (model : String) : Session :=
  { s with llm := s.llm.start now model }

theorem received_modelReset (s : Session) : s.modelReset.received = [] := rfl

end Intake.Session
