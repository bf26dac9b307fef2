import Intake.ErrorRecord
import Intake.Hints.Remarks
import Intake.Hints.Written
import Intake.Layer.Kind
import Intake.Layer.PageReading
import Intake.Layer.TextLayer

/-!
# Batch runs

A whole extraction at once: the text layer, then the pages, then the model.
Each layer stands on its own and is left out when what it needs is missing.
A layer that fails leaves a record beside the result.

* `Batch.run` runs every layer that applies; `Report` is what comes out.
* `Batch.textStage`, `Batch.pagesStage` and `Batch.modelStage` are the
  layers.
-/

namespace Intake

open Text

/-- The outcome of a run. -/
structure Report where
  /-- The best text there is: the text layer, or what was read from pages. -/
  text : String := ""
  /-- The text layer of a PDF. -/
  pdfText : String := ""
  /-- What was read from pages. -/
  pages : Page := {}
  hints : Option Hints := none
  /-- The pages gave text. -/
  pagesUsed : Bool := false
  /-- The model gave hints. -/
  modelUsed : Bool := false
  errors : ErrorLog := {}

/-- A report as named JSON values. -/
def Report.members (r : Report) : List (String × Json) :=
  [("extracted_text", .text r.text), ("pdf_text", .text r.pdfText), ("ocr_text", .text r.pages.text),
   ("ocr_tsv", .text r.pages.table), ("hints", Hints.jsonOr Hints.toJson r.hints),
   ("ocr_used", .bool r.pagesUsed), ("llm_used", .bool r.modelUsed),
   ("err", Hints.jsonOr (.text ·.summaryLine) r.errors.first?), ("errors", r.errors.toJson)]

/-- What a run works on and with. -/
structure Job where
  data : Utf8.Bytes
  filename : String
  mime : String
  settings : Settings
  /-- Without a client the model is left out. -/
  client : Option ChatClient := none
  entities : KnownEntities := {}

namespace Job

/-- The client to be asked: there is one and the model is enabled. -/
def modelInUse (j : Job) : Option ChatClient := if j.settings.modelEnabled then j.client else none

/-- Whether the document has pages to be read. -/
def hasPages (j : Job) : Bool := Mime.isPdf j.mime || Mime.isImage j.mime

/-- What the model is told. -/
def prompt (j : Job) (r : Report) : Prompt :=
  .build j.entities
    { filename := j.filename, mime := j.mime, size := j.data.length, pdfText := r.pdfText
      ocrText := r.pages.text, text := r.text }

end Job

namespace Shell

/-- Asks a model for a whole reply. -/
def complete (client : ChatClient) (messages : List Message) : Shell String := fun s =>
  let (answer, seconds, desk) := s.desk.complete client.model messages
  let s := { s with desk := desk, book := s.book.tick seconds }
  match answer with
  | .error e => (.error e, s)
  | .ok reply =>
    (.ok reply, s.note .chat .debug
      (client.model ++ " replied with " ++ toString reply.length ++ " chars"))

/-- Reads the hints of a reply. -/
def readReply (reply : String) : Shell Hints := fun s =>
  let s := (Reply.remarks reply).foldl (fun s text => s.note .reply .debug text) s
  match Reply.read reply with
  | .ok hints => (.ok hints, s)
  | .error (.malformed m) => (.error (.reply m.message reply), s)
  | .error .overflow => (.error .overflow, s)

/-- Handles the faults of a layer. A cancellation and a caller that was
given up are no faults of the layer. -/
def onFault {α : Type} (layer : Shell α) (handle : Fault → Shell α) : Shell α :=
  tryCatch layer fun e => if e.isSilent then throw e else handle e

end Shell

namespace Batch

/-! ## Layers -/

/-- Adds a failure to a report. -/
def recordFailure (r : Report) (e : ErrorRecord) : Report := { r with errors := r.errors.add e }

/-- The text layer. -/
def textStage (j : Job) (r : Report) : Shell Report := do
  Shell.report (·.startLayer "text" j.mime)
  Shell.onFault
    (do
      let text ← TextLayer.extract j.data j.mime (some j.settings.textTimeout)
      Shell.report (·.layerResult "text layer" [("chars", .int text.length)])
      return { r with text := text, pdfText := if Mime.isPdf j.mime then text else r.pdfText })
    fun e => do
      Shell.report (·.error "Text extraction failed" (some e) [])
      return recordFailure r
        (.textExtraction ("text extraction: " ++ e.message) (some j.filename) (some e))

/-- Puts what was read from pages into a report. Pages stand in for a
missing text layer. -/
def withPages (r : Report) (p : Page) : Report :=
  if p.text.isEmpty then r
  else { r with pages := p, pagesUsed := true, text := if r.text.isEmpty then p.text else r.text }

/-- The pages. -/
def pagesStage (j : Job) (r : Report) : Shell Report := do
  let available ← Shell.ask
    (if Mime.isPdf j.mime then Tools.pdfOcrAvailable else Tools.imageOcrAvailable)
  if ! available then
    Shell.report (·.debug "OCR tools not installed, skipping OCR" [("mime", .text j.mime)])
    return r
  Shell.report (·.startLayer "ocr" Tool.ocrEngine.name)
  Shell.onFault
    (do
      let p ← PageReading.read j.data j.mime j.settings.maxPages
      Shell.report (·.layerResult "ocr" [("chars", .int p.text.length)])
      return withPages r p)
    fun e => do
      Shell.report (·.error "OCR failed" (some e) [])
      return recordFailure r (.ocr ("ocr: " ++ e.message) (some j.filename) (some e))

/-- The figures of hints. -/
def hintFigures (h : Hints) : Journal.Fields :=
  [("document_type", .text (match h.documentType with
      | some t => t.name
      | none => "-")),
   ("maintenance_items", .int h.maintenance.length)]

/-- Asks the model. Every fault of the call leaves a record. -/
def askModel (j : Job) (r : Report) (client : ChatClient) : Shell (Except Report String) :=
  tryCatch (.ok <$> Shell.complete client (j.prompt r).messages) fun e =>
    if e.isAbandoned then throw e
    else do
      Shell.report (·.error "LLM call failed" (some e) [])
      return .error (recordFailure r (.llmApi ("llm chat: " ++ e.message) (some j.filename)))

/-- Reads the model's reply. A reply that is no JSON object leaves a
record. -/
def readHints (j : Job) (r : Report) (reply : String) : Shell Report :=
  tryCatch
    (do
      let hints ← Shell.readReply reply
      Shell.report (·.layerResult "hints" (hintFigures hints))
      return { r with hints := some hints, modelUsed := true })
    fun e =>
      match e with
      | .reply _ _ => do
        Shell.report (·.error "LLM reply was not valid JSON" (some e) [])
        return recordFailure r
          (.llmParse ("parse llm response: " ++ e.message) (some j.filename) (some reply))
      | e => throw e

/-- The model. -/
def modelStage (j : Job) (r : Report) (client : ChatClient) : Shell Report := do
  Shell.report (·.startLayer "llm" client.model)
  match ← askModel j r client with
  | .error r => return r
  | .ok reply => readHints j r reply

/-! ## Runs -/

/-- A layer of a run; a cancellation ends the run with a record of the
layer it happened in. The flag says whether the run goes on. -/
def orCancelled (j : Job) (stage : LayerKind) (r : Report) (layer : Shell Report) :
    Shell (Bool × Report) :=
  tryCatch ((true, ·) <$> layer) fun e =>
    if e.isCancelled then do
      Shell.report (·.warning "Extraction cancelled"
        [("file", .text j.filename), ("phase", .text stage.name)])
      return (false, recordFailure r (.cancelled stage.name (some j.filename)))
    else throw e

/-- The model is asked only about some text. -/
def hasText (r : Report) : Bool :=
  ! (r.pdfText.isEmpty && r.pages.text.isEmpty && r.text.isEmpty)

/-- The layers that apply, in order. -/
def stages (j : Job) : Shell Report := do
  let (goesOn, r) ← orCancelled j .text {} (textStage j {})
  if ! goesOn then return r
  let (goesOn, r) ← if j.hasPages then orCancelled j .ocr r (pagesStage j r) else pure (true, r)
  if ! goesOn then return r
  match j.modelInUse with
  | some client =>
    if hasText r then return (← orCancelled j .llm r (modelStage j r client)).2 else return r
  | none => return r

/-- The figures of a run. -/
def figures (r : Report) : Journal.Fields :=
  [("ocr_used", .bool r.pagesUsed), ("llm_used", .bool r.modelUsed)] ++ r.errors.summary

/-- Runs every layer that applies. An empty document gives nothing. -/
def run (j : Job) : Shell Report :=
  if j.data.isEmpty then return {}
  else do
    Shell.report (·.startRun j.filename)
    let r ← stages j
    Shell.report (·.endRun r.errors.errors.isEmpty (figures r))
    return r

theorem run_nil {j : Job} (h : j.data = []) : run j = pure {} := by
  simp [run, h]

end Batch
end Intake
