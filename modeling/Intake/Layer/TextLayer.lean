import Intake.Mime
import Intake.Program.Run
import Intake.Settings
import Intake.Text.Spacing

/-!
# The text layer

The text that a document carries itself: a PDF gives it through a program,
plain text is taken as it is. All other documents have none.

* `TextLayer.extract` reads it; `TextLayer.start` and `TextLayer.finish` do so in
  two parts, and `extract_eq` says that they make up the whole.
* `extract_nil` says that an empty document has no text.
-/

namespace Intake.TextLayer

open Text

/-- The time bound in force: one that is missing or not positive selects
the default. -/
def boundInForce (bound : Option Float) : Float :=
  match bound with
  | some seconds => if seconds ≤ 0 then Settings.defaultTextTimeout else seconds
  | none => Settings.defaultTextTimeout

/-- Puts the text of a PDF out, its layout kept. -/
def request (scratch : String) (seconds : Float) : Request where
  program := Tool.textExtractor.name
  arguments := ["-layout", scratch ++ "/input.pdf", "-"]
  limit := some seconds

/-- The text of a PDF. -/
def extractPdf (seconds : Float) : Shell String := do
  let site ← get
  let result ← Shell.run (request site.scratch seconds)
  let text := normalized (Utf8.decodeString result.output)
  Shell.note .textLayer .debug ("pdftotext extracted " ++ toString text.length ++ " chars")
  return text

/-- The text layer of a document. Without the program a PDF has none. -/
def extract (data : Utf8.Bytes) (mime : String) (bound : Option Float) : Shell String :=
  if data.isEmpty then return ""
  else if Mime.isPdf mime then do
    if ← Shell.ask (Tools.has .textExtractor) then extractPdf (boundInForce bound)
    else return ""
  else if Mime.isPlainText mime then return normalized (Utf8.decodeString data)
  else return ""

/-- Begins to read the text layer: gives the text, or the program that is to
put it out. -/
def start (data : Utf8.Bytes) (mime : String) (bound : Option Float) : Shell (String ⊕ Started) :=
  if data.isEmpty then return .inl ""
  else if Mime.isPdf mime then do
    if ← Shell.ask (Tools.has .textExtractor) then
      return .inr (← Shell.start (request (← get).scratch (boundInForce bound)))
    else return .inl ""
  else if Mime.isPlainText mime then return .inl (normalized (Utf8.decodeString data))
  else return .inl ""

/-- Reads the text that a started program puts out. -/
def finish (p : Started) : Shell String := do
  let result ← Shell.awaitStarted p
  let text := normalized (Utf8.decodeString result.output)
  Shell.note .textLayer .debug ("pdftotext extracted " ++ toString text.length ++ " chars")
  return text

/-- To read the text layer is to begin and to finish at once. -/
theorem extract_eq (data : Utf8.Bytes) (mime : String) (bound : Option Float) :
    extract data mime bound = start data mime bound >>= Sum.elim pure finish := by
  unfold extract start
  split
  · rw [pure_bind, Sum.elim_inl]
  split
  · rw [bind_assoc]
    congr 1
    funext there
    cases there with
    | false => rfl
    | true =>
      simp only [extractPdf, finish, Shell.run_eq, if_true, bind_assoc, pure_bind, Sum.elim_inr]
  split
  · rw [pure_bind, Sum.elim_inl]
  · rw [pure_bind, Sum.elim_inl]

theorem extract_nil (mime : String) (bound : Option Float) : extract [] mime bound = pure "" := rfl

end Intake.TextLayer
