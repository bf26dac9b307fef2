import Intake.Fault
import Intake.Json.Basic

/-!
# Error records

Failures of single layers are kept as records beside the result, so that
whatever the other layers produced can still be saved.

* `ErrorRecord` is one failure with its category and severity.
* `ErrorLog` holds the errors and the warnings of a run apart;
  `mem_add_iff` says that adding keeps every record.
-/

namespace Intake

/-- How bad a failure is. Only a warning loses nothing. -/
inductive Severity where
  | warning
  | error
  | critical
  deriving DecidableEq, Repr, Inhabited

/-- The name of a severity. -/
def Severity.name : Severity → String
  | warning => "warning"
  | error => "error"
  | critical => "critical"

/-- What failed. -/
inductive Category where
  | textExtraction
  | rasterize
  | pageOcr
  | llmApi
  | llmParse
  | cancelled
  | store
  | unknown
  deriving DecidableEq, Repr, Inhabited

namespace Category

/-- All categories in order. -/
def all : List Category :=
  [textExtraction, rasterize, pageOcr, llmApi, llmParse, cancelled, store, unknown]

/-- The name of a category. -/
def name : Category → String
  | textExtraction => "text_extraction"
  | rasterize => "rasterize"
  | pageOcr => "page_ocr"
  | llmApi => "llm_api"
  | llmParse => "llm_parse"
  | cancelled => "cancelled"
  | store => "store"
  | unknown => "unknown"

end Category

/-- One failure. The phase is the layer in which it happened. -/
structure ErrorRecord where
  category : Category
  severity : Severity
  message : String
  phase : String
  filename : Option String := none
  context : List (String × Json) := []
  deriving Inhabited

namespace ErrorRecord

/-- A failure of the text layer. -/
def textExtraction (message : String) (filename : Option String) (cause : Option Fault) :
    ErrorRecord where
  category := .textExtraction
  severity := .error
  message := message
  phase := "text"
  filename := filename
  context := [("timeout", .bool (cause.any Fault.isTimeout))]

/-- A failure of page reading. -/
def ocr (message : String) (filename : Option String) (cause : Option Fault) : ErrorRecord where
  category := if cause.any Fault.isRasterize then .rasterize else .pageOcr
  severity := .error
  message := message
  phase := "ocr"
  filename := filename

/-- A failed call of the model. -/
def llmApi (message : String) (filename : Option String) : ErrorRecord where
  category := .llmApi
  severity := .error
  message := message
  phase := "llm"
  filename := filename

/-- How much of a malformed reply is kept. -/
def keptReplyLength : Nat := 500

/-- A reply that is no JSON object; the head of the reply is kept. -/
def llmParse (message : String) (filename reply : Option String) : ErrorRecord where
  category := .llmParse
  severity := .error
  message := message
  phase := "llm"
  filename := filename
  context := [("raw_response", match reply with
    | some raw =>
      if raw.isEmpty then .null else .text (String.ofList (raw.toList.take keptReplyLength))
    | none => .null)]

/-- A cancellation, which is a warning and not a failure. -/
def cancelled (phase : String) (filename : Option String) : ErrorRecord where
  category := .cancelled
  severity := .warning
  message := "extraction cancelled"
  phase := phase
  filename := filename

/-- The severity in capitals. -/
def severityLabel : Severity → String
  | .warning => "WARNING"
  | .error => "ERROR"
  | .critical => "CRITICAL"

/-- A record in one line. -/
def summaryLine (r : ErrorRecord) : String :=
  let file := match r.filename with
    | some name => if name.isEmpty then [] else ["file=" ++ name]
    | none => []
  let phase := if r.phase.isEmpty then [] else ["phase=" ++ r.phase]
  " | ".intercalate
    (("[" ++ severityLabel r.severity ++ "] " ++ r.category.name ++ ": " ++ r.message)
      :: file ++ phase)

/-- A record as a JSON object. -/
def toJson (r : ErrorRecord) : Json :=
  .object
    [("category", .text r.category.name), ("severity", .text r.severity.name),
     ("message", .text r.message), ("phase", .text r.phase),
     ("filename", (r.filename.map Json.text).getD .null),
     ("context", .object r.context)]

end ErrorRecord

/-- The failures of one run. -/
structure ErrorLog where
  errors : List ErrorRecord := []
  warnings : List ErrorRecord := []
  deriving Inhabited

namespace ErrorLog

/-- Adds a record to the warnings or to the errors by its severity. -/
def add (log : ErrorLog) (r : ErrorRecord) : ErrorLog :=
  if r.severity = .warning then { log with warnings := log.warnings ++ [r] }
  else { log with errors := log.errors ++ [r] }

/-- All records, errors first. -/
def records (log : ErrorLog) : List ErrorRecord := log.errors ++ log.warnings

theorem mem_add_iff (log : ErrorLog) (r x : ErrorRecord) :
    x ∈ (log.add r).records ↔ x ∈ log.records ∨ x = r := by
  unfold add records
  split <;> simp [List.mem_append, or_comm, or_left_comm]

/-- Whether some record belongs to a category. -/
def has (log : ErrorLog) (c : Category) : Bool := log.records.any (·.category == c)

/-- The first failure; a warning counts when there is no error. -/
def first? (log : ErrorLog) : Option ErrorRecord := log.records.head?

/-- The number of errors of every category that occurs, in the order of
first occurrence. -/
def errorsByCategory (log : ErrorLog) : List (Category × Nat) :=
  (log.errors.map (·.category)).eraseDups.map fun c =>
    (c, log.errors.countP (·.category == c))

/-- The counts of a run. -/
def summary (log : ErrorLog) : List (String × Json) :=
  [("total_errors", .int log.errors.length), ("total_warnings", .int log.warnings.length),
   ("errors_by_category",
     .object (log.errorsByCategory.map fun (c, n) => (c.name, .int n)))]

/-- A log as a JSON object. -/
def toJson (log : ErrorLog) : Json :=
  .object
    [("errors", .arr (log.errors.map ErrorRecord.toJson)),
     ("warnings", .arr (log.warnings.map ErrorRecord.toJson)),
     ("summary", .object log.summary)]

end ErrorLog
end Intake
