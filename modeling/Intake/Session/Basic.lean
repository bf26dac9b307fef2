import Intake.Fault
import Intake.Hints.Basic
import Intake.Layer.Kind
import Intake.Layer.Progress
import Intake.Mime
import Intake.Prompt
import Intake.Table.Pages

/-!
# Sessions

One document that is extracted step by step while somebody watches. The
results are held in the session until they are accepted.

* `StepInfo` is a step and what it shows; `StepInfo.ofText` is the text
  step, which is done from the start.
* `Session.active` are the steps that apply, in order; `mem_active_iff`
  says which.
* `Session.canAccept` says when the results may be saved.
-/

namespace Intake

open Text

/-- How far a step has come. -/
inductive StepStatus where
  | pending
  | running
  | done
  | failed
  deriving DecidableEq, Repr

/-- The name of a status. -/
def StepStatus.name : StepStatus → String
  | pending => "pending"
  | running => "running"
  | done => "done"
  | failed => "failed"

/-- A step and what it shows. -/
structure StepInfo where
  status : StepStatus := .pending
  /-- The tool or model at work, or how far it is. -/
  detail : String := ""
  /-- What the step measured. -/
  metric : String := ""
  logs : List String := []
  /-- The seconds the step took, set when it ends. -/
  elapsed : Float := 0
  started : Option Float := none

namespace StepInfo

/-- The measure of a text. -/
def charsText (n : Nat) : String := toString n ++ " chars"

/-- The number of characters of a text between its blank ends. -/
def contentLength (text : String) : Nat := (trimmed text).length

/-- The lines a text is shown as; a blank text shows none. -/
def contentLines (text : String) : List String :=
  if contentLength text = 0 then [] else linesOf text

/-- The tool behind a text layer. -/
def textTool (mime : String) : String :=
  if Mime.isPdf mime then "pdf" else if Mime.isPlainText mime then "plaintext" else mime

/-- The text step of a document whose text is known. -/
def ofText (mime text : String) : StepInfo where
  status := .done
  detail := textTool mime
  metric := charsText (contentLength text)
  logs := contentLines text

/-- A step starts. -/
def start (i : StepInfo) (now : Float) (detail : String) : StepInfo :=
  { i with
    status := .running
    started := some now
    detail := if detail.isEmpty then i.detail else detail }

/-- Takes the time of a step that ends. -/
def timed (i : StepInfo) (now : Float) : StepInfo :=
  { i with elapsed := match i.started with
      | some start => now - start
      | none => i.elapsed }

/-- A step fails with a line that says why. -/
def fail (i : StepInfo) (line : String) : StepInfo :=
  { i with status := .failed, logs := i.logs ++ [line] }

end StepInfo

/-- An open session. -/
structure Session where
  /-- Sessions are numbered in the order in which they open. -/
  number : Nat
  document : Int
  filename : String
  mime : String
  data : Utf8.Bytes
  maxPages : Int
  text : StepInfo := {}
  ocr : StepInfo := {}
  llm : StepInfo := {}
  hasText : Bool
  hasOcr : Bool
  hasLlm : Bool
  /-- Every step has ended. -/
  done : Bool := false
  /-- Some step has failed. -/
  hasError : Bool := false
  /-- The text layer of a PDF. -/
  pdfText : String := ""
  /-- The best text there is. -/
  extractedText : String := ""
  /-- The stream of progress events, by its number. -/
  progress : Option Nat := none
  /-- The stream of the model's reply, by its number. -/
  reply : Option Nat := none
  /-- The pieces of the reply that arrived. -/
  received : List String := []
  /-- What was read from the pages. -/
  pages : Page := {}
  hints : Option Hints := none
  cursor : Int := 0
  /-- The steps that were opened or closed by hand. -/
  chosen : List (LayerKind × Bool) := []

namespace Session

/-! ## Steps -/

/-- A step. -/
def info (s : Session) : LayerKind → StepInfo
  | .text => s.text
  | .ocr => s.ocr
  | .llm => s.llm

/-- Whether a step applies to the document. -/
def applies (s : Session) : LayerKind → Bool
  | .text => s.hasText
  | .ocr => s.hasOcr
  | .llm => s.hasLlm

/-- The steps that apply, in order. -/
def active (s : Session) : List LayerKind := LayerKind.all.filter s.applies

theorem mem_active_iff (s : Session) (k : LayerKind) : k ∈ s.active ↔ s.applies k = true := by
  simp [active, LayerKind.mem_all]

/-- The step under the cursor; the text step when the cursor is on none. -/
def cursorStep (s : Session) : LayerKind :=
  if s.cursor < 0 then .text else s.active[s.cursor.toNat]?.getD .text

/-- Whether a step that applies has failed. -/
def anyFailed (s : Session) : Bool :=
  s.active.any fun k => decide ((s.info k).status = .failed)

/-- Whether the results may be saved: every step has ended and none has
failed. -/
def canAccept (s : Session) : Bool := s.done && ! s.hasError && ! s.anyFailed

/-! ## The view -/

/-- Whether a step shows its lines by itself: while it runs, when it has
failed, and for the model's step also when it is done. -/
def opensItself (k : LayerKind) (status : StepStatus) : Bool :=
  match status with
  | .running => true
  | .failed => true
  | .done => decide (k = .llm)
  | .pending => false

/-- Whether a step shows its lines. A choice made by hand counts first. -/
def isExpanded (s : Session) (k : LayerKind) : Bool :=
  (s.chosen.lookup k).getD (opensItself k (s.info k).status)

/-- Keeps a choice made by hand. -/
def choose (s : Session) (k : LayerKind) (shown : Bool) : Session :=
  { s with chosen :=
      if s.chosen.any (·.1 == k) then
        s.chosen.map fun c => if c.1 == k then (k, shown) else c
      else s.chosen ++ [(k, shown)] }

/-- Opens or closes the step under the cursor. -/
def toggle (s : Session) : Session := s.choose s.cursorStep (! s.isExpanded s.cursorStep)

/-- Moves the cursor; it stays on the steps that apply. -/
def moveBy (s : Session) (by_ : Int) : Session :=
  { s with cursor := max 0 (min ((s.active.length : Int) - 1) (s.cursor + by_)) }

/-! ## The document -/

/-- What a model is told about the document. -/
def source (s : Session) : DocumentSource where
  filename := s.filename
  mime := s.mime
  size := s.data.length
  pdfText := s.pdfText
  ocrText := s.pages.text
  text := s.extractedText

end Session
end Intake
