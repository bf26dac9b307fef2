import Intake.Number.Written
import Intake.Text.Blank
import Intake.Text.Quoted

/-!
# Faults

Everything that can go wrong while a document is read, as causes.
Messages are worded here and nowhere else.

* `Fault` lists the causes; `Fault.message` words them.
* `Fault.isTool`, `Fault.isCancelled` and `Fault.isStore` are the classes
  that callers tell apart.
* `Fault.isSilent` is the class of those that end a command without a word.
* `Fault.isCancelled_iff` says which causes are cancellations; none of them
  is a failed program.
-/

namespace Intake

/-- The kinds of faults that carry nothing but a message. -/
inductive PlainKind where
  | runtime
  | connection
  | value
  | key
  | os
  | permission
  | store
  | config
  | cancelled
  deriving DecidableEq, Repr

/-- A program that ended with an error. -/
structure ToolFailure where
  tool : String
  /-- What the program reported, trimmed. -/
  report : String
  status : Option Int
  deriving DecidableEq, Repr

/-- A failed program with its report trimmed. -/
def ToolFailure.of (tool report : String) (status : Option Int) : ToolFailure :=
  ⟨tool, Text.trimmed report, status⟩

/-- Names the tool and its report, or its status when it reported nothing. -/
def ToolFailure.message (f : ToolFailure) : String :=
  let status := match f.status with
    | some n => Number.intText n
    | none => "None"
  f.tool ++ ": " ++ (if f.report.isEmpty then "exit status " ++ status else f.report)

/-- The streams a session waits on. -/
inductive StreamKind where
  | progress
  | reply
  deriving DecidableEq, Repr

/-- What can go wrong. -/
inductive Fault where
  /-- A fault told apart by its kind alone. -/
  | plain (kind : PlainKind) (text : String)
  /-- A program ended with an error. -/
  | tool (f : ToolFailure)
  /-- The program that renders pages ended with an error. -/
  | rasterize (f : ToolFailure)
  /-- A program ran past its time and was stopped. -/
  | timeout (tool : String) (seconds : Float)
  /-- A model's reply is no JSON object. -/
  | reply (text raw : String)
  /-- A number of too many digits cannot be rounded. -/
  | overflow
  /-- A stream was awaited before it was opened. -/
  | unopened (stream : StreamKind)
  /-- A program that was to be stopped is there no more. -/
  | lost
  /-- The caller was given up while it waited. Neither a run nor a session takes
  note of it; it passes them all by. -/
  | abandoned

namespace Fault

/-- The work was cancelled. -/
def cancelled : Fault := plain .cancelled "extraction cancelled"

/-- A runtime fault. -/
def runtime (text : String) : Fault := plain .runtime text

/-- A fault of the document store. -/
def store (text : String) : Fault := plain .store text

/-- A setting holds an invalid value. -/
def config (text : String) : Fault := plain .config text

/-- A program that was stopped, as a failed program. -/
def timeoutFailure (tool : String) (seconds : Float) : ToolFailure :=
  .of tool ("timed out after " ++ Number.significant seconds ++ "s") none

/-- The wording of a fault. -/
def message : Fault → String
  | plain .key text => Text.quoted text
  | plain _ text => text
  | tool f => f.message
  | rasterize f => f.message
  | timeout t seconds => (timeoutFailure t seconds).message
  | reply text _ => "parse extraction json: " ++ text
  | overflow => "the number has too many digits"
  | unopened .progress => "'NoneType' object has no attribute 'next'"
  | unopened .reply => "'NoneType' object is not an async iterator"
  | lost => ""
  | abandoned => ""

/-- The name of the kind of a fault in reports. -/
def kindName : Fault → String
  | plain .runtime _ => "RuntimeError"
  | plain .connection _ => "ConnectionError"
  | plain .value _ => "ValueError"
  | plain .key _ => "KeyError"
  | plain .os _ => "OSError"
  | plain .permission _ => "PermissionError"
  | plain .store _ => "StoreError"
  | plain .config _ => "ConfigError"
  | plain .cancelled _ => "ExtractionCancelled"
  | tool _ => "ToolError"
  | rasterize _ => "RasterizeError"
  | timeout _ _ => "ToolTimeoutError"
  | reply _ _ => "ResponseParseError"
  | overflow => "InvalidOperation"
  | unopened .progress => "AttributeError"
  | unopened .reply => "TypeError"
  | lost => "ProcessLookupError"
  | abandoned => "CancelledError"

/-- A fault in full: the name of its kind and its text in quotes. -/
def display : Fault → String
  | plain kind text => (plain kind text).kindName ++ "(" ++ Text.quoted text ++ ")"
  | e => e.kindName ++ "(" ++ Text.quoted e.message ++ ")"

/-- The failed program behind a fault. -/
def toolFailure? : Fault → Option ToolFailure
  | tool f => some f
  | rasterize f => some f
  | timeout t seconds => some (timeoutFailure t seconds)
  | _ => none

/-- Whether a program failed or was stopped. -/
def isTool (e : Fault) : Bool := e.toolFailure?.isSome

/-- Whether the work was cancelled. -/
def isCancelled : Fault → Bool
  | plain .cancelled _ => true
  | _ => false

/-- Whether the caller was given up. -/
def isAbandoned : Fault → Bool
  | abandoned => true
  | _ => false

/-- Whether a command that meets the fault delivers nothing. -/
def isSilent (e : Fault) : Bool := e.isCancelled || e.isAbandoned

/-- Whether the document store failed. -/
def isStore : Fault → Bool
  | plain .store _ => true
  | _ => false

/-- Whether the pages could not be rendered. -/
def isRasterize : Fault → Bool
  | rasterize _ => true
  | _ => false

/-- Whether a program ran past its time. -/
def isTimeout : Fault → Bool
  | timeout _ _ => true
  | _ => false

/-- Whether a value was invalid. -/
def isValue : Fault → Bool
  | plain .value _ => true
  | plain .config _ => true
  | reply _ _ => true
  | _ => false

theorem isCancelled_iff (e : Fault) : e.isCancelled ↔ ∃ text, e = plain .cancelled text := by
  cases e <;> simp [isCancelled]
  rename_i kind text
  cases kind <;> simp

theorem isTool_eq_false_of_isCancelled {e : Fault} (h : e.isCancelled) : e.isTool = false := by
  obtain ⟨text, rfl⟩ := (isCancelled_iff e).1 h
  rfl

end Fault
end Intake
