import Intake.Fault
import Intake.Number.Reading
import Intake.Provider

/-!
# Settings

The page cap, the time bound of text extraction, the model and whether it
is asked at all. Settings come from the environment and may be overridden
once.

* `Settings.ofEnvironment` and `Settings.override` make settings or refuse
  a value; `Refusal.message` words the refusal.
* `Configuration.load` chooses the provider and makes its settings.
* `seconds_pos` and `pageCap_pos` say that what is accepted is positive.
-/

namespace Intake

open Text Number

/-- What is read from pages and from models by default. -/
structure Settings where
  maxPages : Int := 20
  textTimeout : Float := 30
  modelEnabled : Bool := true
  model : String

namespace Settings

/-- Stands for a page cap of zero. -/
def defaultMaxPages : Int := 20

/-- Stands for a time bound that is missing or not positive. -/
def defaultTextTimeout : Float := 30

/-- Why a value of a setting is refused. -/
inductive Refusal where
  | duration (name value : String)
  | notPositive (name value : String)
  | boolean (name value : String)
  | integer (name value : String)
  | negative (name : String) (pages : Int)
  deriving DecidableEq, Repr

/-- The wording of a refusal. -/
def Refusal.message : Refusal → String
  | duration name value =>
    name ++ ": invalid duration " ++ quoted value ++ " -- use forms like \"30s\" or \"1m\""
  | notPositive name value => name ++ " must be positive, got " ++ quoted value
  | boolean name value => name ++ ": expected a boolean, got " ++ quoted value
  | integer name value => name ++ ": expected an integer, got " ++ quoted value
  | negative name pages => name ++ " must be non-negative, got " ++ intText pages

/-- What is said of a number of more than `maxDigitsRead` digits. -/
def unwritable : String :=
  "Exceeds the limit (" ++ toString maxDigitsRead
    ++ " digits) for integer string conversion; use sys.set_int_max_str_digits() to increase the limit"

/-- A refusal as a fault. A number of too many digits cannot be worded. -/
def Refusal.fault : Refusal → Fault
  | negative name pages =>
    if (digits pages.natAbs).length ≤ maxDigitsRead then .config (negative name pages).message
    else .plain .value unwritable
  | r => .config r.message

/-! ## Durations -/

/-- The units of durations in seconds. -/
def unitSeconds (unit : List Char) : Option Float :=
  match unit with
  | [] => some 1
  | ['m', 's'] => some 0.001
  | ['s'] => some 1
  | ['m'] => some 60
  | ['h'] => some 3600
  | _ => none

/-- Cuts a number of any script's digits with optional places off the front. -/
def spanNumber (s : List Char) : List Char × List Char × List Char :=
  match s.span isDecimal with
  | (whole, '.' :: rest) =>
    match rest.span isDecimal with
    | ([], _) => (whole, [], '.' :: rest)
    | (places, left) => (whole, places, left)
  | (whole, rest) => (whole, [], rest)

/-- A duration in seconds: a number and a unit, with blanks around both. -/
def durationSeconds? (value : List Char) : Option Float :=
  let (whole, places, rest) := spanNumber (trim value)
  if whole.isEmpty then none
  else
    let n := ofDigits ((whole ++ places).filterMap digitValue?)
    (unitSeconds (trimStart rest)).map fun unit =>
      toDouble ⟨false, n, -(places.length : Int)⟩ * unit

/-- Reads a positive duration. -/
def seconds (name value : String) : Except Refusal Float :=
  match durationSeconds? value.toList with
  | none => .error (.duration name value)
  | some x => if x > 0 then .ok x else .error (.notPositive name value)

theorem seconds_pos {name value : String} {x : Float} (h : seconds name value = .ok x) :
    x > 0 := by
  unfold seconds at h
  split at h
  · cases h
  · split at h
    · cases h
      assumption
    · cases h

/-! ## Words and caps -/

/-- The words for true and for false. -/
def trueWords : List String := ["1", "true", "yes", "on"]

@[inherit_doc trueWords]
def falseWords : List String := ["0", "false", "no", "off"]

/-- Reads a boolean word. -/
def flag (name value : String) : Except Refusal Bool :=
  let word := lowered (trim value.toList)
  if trueWords.any (·.toList == word) then .ok true
  else if falseWords.any (·.toList == word) then .ok false
  else .error (.boolean name value)

/-- Accepts a page cap. Zero selects the default. -/
def pageCap (name : String) (pages : Int) : Except Refusal Int :=
  if pages < 0 then .error (.negative name pages)
  else .ok (if pages = 0 then defaultMaxPages else pages)

theorem pageCap_pos {name : String} {pages n : Int} (h : pageCap name pages = .ok n) :
    0 < n := by
  unfold pageCap at h
  split at h
  · cases h
  · split at h <;> cases h
    · decide
    · omega

/-- Reads a page cap. -/
def pageCapText (name value : String) : Except Refusal Int :=
  match readInt? value.toList with
  | some n => pageCap name n
  | none => .error (.integer name value)

/-! ## Settings -/

/-- A variable that is set and not empty. -/
def present? (env : Environment) (name : String) : Option String :=
  (env.get? name).filter (! ·.isEmpty)

/-- The variable of the page cap. -/
def maxPagesVariable : String := "DOCEXTRACT_MAX_OCR_PAGES"

/-- The variable of the time bound. -/
def textTimeoutVariable : String := "DOCEXTRACT_TEXT_TIMEOUT"

/-- The variable that turns the model on and off. -/
def modelEnabledVariable : String := "DOCEXTRACT_EXTRACTION_ENABLED"

/-- The variable that names the model. -/
def modelVariable : String := "DOCEXTRACT_EXTRACTION_MODEL"

/-- Reads a variable that is present, else keeps a default. -/
def orDefault {α : Type} (env : Environment) (name : String) (d : α)
    (read : String → String → Except Refusal α) : Except Refusal α :=
  match present? env name with
  | some value => read name value
  | none => .ok d

/-- The settings of an environment. -/
def ofEnvironment (env : Environment) (defaultModel : String) : Except Refusal Settings := do
  let maxPages ← orDefault env maxPagesVariable defaultMaxPages pageCapText
  let textTimeout ← orDefault env textTimeoutVariable defaultTextTimeout seconds
  let modelEnabled ← orDefault env modelEnabledVariable true flag
  let model := trimmed ((env.get? modelVariable).getD "")
  return ⟨maxPages, textTimeout, modelEnabled, if model.isEmpty then defaultModel else model⟩

/-- Values that replace settings. -/
structure Overrides where
  maxPages : Option Int := none
  textTimeout : Option Float := none
  modelEnabled : Option Bool := none
  model : Option String := none

/-- Replaces the given settings; an empty model keeps the old one. -/
def override (s : Settings) (o : Overrides) : Except Refusal Settings := do
  let maxPages ← match o.maxPages with
    | some n => pageCap "max_ocr_pages" n
    | none => .ok s.maxPages
  return {
    maxPages := maxPages
    textTimeout := o.textTimeout.getD s.textTimeout
    modelEnabled := o.modelEnabled.getD s.modelEnabled
    model := match o.model with
      | some m => if m.isEmpty then s.model else m
      | none => s.model }

end Settings

/-! ## Configurations -/

/-- Where models run and what is read. -/
structure Configuration where
  provider : Provider
  settings : Settings

/-- The configuration of an environment, its settings replaced one after the
other. -/
def Configuration.load (env : Environment) (changes : List Settings.Overrides) :
    Except Settings.Refusal Configuration := do
  let provider := Provider.ofEnvironment env
  let first ← Settings.ofEnvironment env (provider.defaultModel env)
  let settings ← changes.foldlM Settings.override first
  return ⟨provider, settings⟩

end Intake
