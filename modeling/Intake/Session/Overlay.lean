import Intake.Session.Workbench
import Intake.Text.Fence

/-!
# The overlay

A session as plain text: a line for each step that applies, its lines
below it while it is expanded, and the keys that mean something now.

* `Workbench.overlay` is the whole text; `overlay_of_no_session` says that
  it is empty without a session.
* `Overlay.headerLine` and `Overlay.bodyLines` are its parts.
-/

namespace Intake

open Text Number

namespace Overlay

/-- The mark of a status. -/
def glyph : StepStatus → String
  | .pending => "  "
  | .running => ".."
  | .done => "ok"
  | .failed => "xx"

/-- A text filled up to a width on its right. -/
def padRight (width : Nat) (s : String) : String :=
  s ++ String.ofList (List.replicate (width - s.length) ' ')

/-- A text filled up to a width on its left. -/
def padLeft (width : Nat) (s : String) : String :=
  String.ofList (List.replicate (width - s.length) ' ') ++ s

/-- The greatest length of a text that a step shows. -/
def columnWidth (s : Session) (column : StepInfo → String) : Nat :=
  (s.active.map fun k => (column (s.info k)).length).foldl max 0

/-- The time of a step: what it took, or how long it has been running. -/
def elapsedText (now : Float) (i : StepInfo) : String :=
  if i.elapsed > 0 then fixed 2 i.elapsed ++ "s"
  else
    match i.status, i.started with
    | .running, some start => fixed 1 (now - start) ++ "s"
    | _, _ => ""

/-- A further part of a line, set off by two blanks unless it is empty. -/
def part (s : String) : String := if s.isEmpty then "" else "  " ++ s

/-- The mark in front of a step under the cursor. The cursor is shown once
the session is done. -/
def cursorMark (s : Session) (place : Nat) (k : LayerKind) : String :=
  if s.done && s.cursor == (place : Int) then (if s.isExpanded k then "v " else "> ") else "  "

/-- Tells that the model's step under the cursor can be run again. -/
def rerunHint (s : Session) (place : Nat) (k : LayerKind) : String :=
  if s.done && s.cursor == (place : Int) && k == .llm && decide (s.llm.status = .done) then
    "r to rerun"
  else ""

/-- The line of a step. -/
def headerLine (s : Session) (now : Float) (place : Nat) (k : LayerKind) : String :=
  let i := s.info k
  let column (width : Nat) (text : String) : String := if width = 0 then "" else "  " ++ text
  let detailWidth := columnWidth s (·.detail)
  let metricWidth := columnWidth s (·.metric)
  let line := cursorMark s place k ++ glyph i.status ++ " " ++ padRight 4 k.name
    ++ column detailWidth (padRight detailWidth i.detail)
    ++ column metricWidth (padLeft metricWidth i.metric)
    ++ part (elapsedText now i) ++ part (rerunHint s place k)
  String.ofList (trimEnd line.toList)

/-- The lines below a step. The fence around a model's reply is left out
unless the step has failed. -/
def bodyLines (s : Session) (k : LayerKind) : List String :=
  let i := s.info k
  if s.isExpanded k && ! i.logs.isEmpty then
    let body := "\n".intercalate i.logs
    (linesOf (if k = .llm ∧ i.status ≠ .failed then unfenced body else body)).map ("     | " ++ ·)
  else []

/-- The lines of the steps from a place on. -/
def stepLines (s : Session) (now : Float) : Nat → List LayerKind → List String
  | _, [] => []
  | place, k :: rest => headerLine s now place k :: bodyLines s k ++ stepLines s now (place + 1) rest

/-- The keys that mean something. -/
def keysLine (s : Session) : String :=
  " . ".intercalate
    (if s.done then
      ["j/k navigate", "enter expand"] ++ (if s.canAccept then ["a accept"] else [])
        ++ ["esc discard"]
    else ["esc cancel"])

/-- A session as lines. -/
def sessionLines (s : Session) (now : Float) : List String :=
  ["Extracting " ++ s.filename, ""] ++ stepLines s now 0 s.active ++ ["", keysLine s]

end Overlay

/-- The open session as text, with what went wrong when it was saved. -/
def Workbench.overlay (w : Workbench) (now : Float) : String :=
  match w.session with
  | none => ""
  | some s =>
    "\n".intercalate (Overlay.sessionLines s now
      ++ if w.statusError.isEmpty then [] else ["error: " ++ w.statusError])

theorem Workbench.overlay_of_no_session {w : Workbench} (h : w.session = none) (now : Float) :
    w.overlay now = "" := by
  simp [overlay, h]

end Intake
