/-!
# Tools

The external programs behind the layers. A tool that is not installed is
never an error: its layer is left out.

* `Tools.has` looks a tool up once and remembers the answer until it is
  told to forget.
* `Capabilities` are the answers for all tools; they are kept as one record
  (`Tools.capabilities`), which says what is known of each tool.
* `lookups_has_of_known` says that a known answer is not looked up again.
-/

namespace Intake

/-- The programs the layers start. -/
inductive Tool where
  | textExtractor
  | rasterizer
  | ocrEngine
  deriving DecidableEq, Repr

/-- The name under which a tool is started. -/
def Tool.name : Tool → String
  | textExtractor => "pdftotext"
  | rasterizer => "pdftoppm"
  | ocrEngine => "tesseract"

/-- Which tools are there. -/
structure Capabilities where
  textExtractor : Bool
  rasterizer : Bool
  ocrEngine : Bool
  deriving DecidableEq, Repr

namespace Capabilities

/-- Pages of a PDF are rendered first and then read. -/
def readsPdf (c : Capabilities) : Bool := c.ocrEngine && c.rasterizer

/-- Images are read directly. -/
def readsImages (c : Capabilities) : Bool := c.ocrEngine

/-- Whether a tool is there. -/
def has (c : Capabilities) : Tool → Bool
  | .textExtractor => c.textExtractor
  | .rasterizer => c.rasterizer
  | .ocrEngine => c.ocrEngine

end Capabilities

/-- The record of all tools, once it was asked for. It says what is known of
each. -/
structure Tools.Record (known : List (Tool × Bool)) where
  all : Option Capabilities
  lookup_all : ∀ c, all = some c → ∀ tool, known.lookup tool = some (c.has tool)

namespace Tools.Record

variable {known : List (Tool × Bool)}

/-- It was not asked for yet. -/
def blank (known : List (Tool × Bool)) : Record known := ⟨none, nofun⟩

/-- It was asked for. -/
def kept (c : Capabilities) (h : ∀ tool, known.lookup tool = some (c.has tool)) : Record known :=
  ⟨some c, fun _ hc => Option.some.inj hc ▸ h⟩

/-- More becomes known. -/
def append (r : Record known) (more : List (Tool × Bool)) : Record (known ++ more) :=
  ⟨r.all, fun c hc tool => by rw [List.lookup_append, r.lookup_all c hc tool, Option.some_or]⟩

end Tools.Record

/-- What is installed, and what is known about it. -/
structure Tools where
  installed : List String := []
  known : List (Tool × Bool) := []
  /-- Every look-up that was made, in order. -/
  lookups : List Tool := []
  record : Tools.Record known := .blank known

namespace Tools

/-- Whether a tool is there. -/
def has (tool : Tool) : StateM Tools Bool := fun s =>
  match s.known.lookup tool with
  | some answer => (answer, s)
  | none =>
    let answer := s.installed.contains tool.name
    (answer, { s with
      known := s.known ++ [(tool, answer)]
      lookups := s.lookups ++ [tool]
      record := s.record.append [(tool, answer)] })

/-- Whether pages of a PDF can be read. The rasterizer is not looked up
without the engine. -/
def pdfOcrAvailable : StateM Tools Bool := do
  if ← has .ocrEngine then has .rasterizer else return false

/-- Whether images can be read. -/
def imageOcrAvailable : StateM Tools Bool := has .ocrEngine

/-- Asks about one tool after the other. -/
def survey : StateM Tools Capabilities := do
  let textExtractor ← has .textExtractor
  let rasterizer ← has .rasterizer
  let ocrEngine ← has .ocrEngine
  return ⟨textExtractor, rasterizer, ocrEngine⟩

theorem lookups_has_of_known {s : Tools} {tool : Tool} {answer : Bool}
    (h : s.known.lookup tool = some answer) : has tool s = (answer, s) := by
  simp [has, h]

/-- What is answered is known. -/
theorem lookup_has (tool : Tool) (s : Tools) :
    (has tool s).2.known.lookup tool = some (has tool s).1 := by
  cases hknown : s.known.lookup tool with
  | some answer => rw [lookups_has_of_known hknown, hknown]
  | none => simp [has, hknown, List.lookup_append]

/-- What is known stays known. -/
theorem lookup_has_of_known {s : Tools} {other : Tool} {answer : Bool}
    (h : s.known.lookup other = some answer) (tool : Tool) :
    (has tool s).2.known.lookup other = some answer := by
  cases hknown : s.known.lookup tool with
  | some a => rw [lookups_has_of_known hknown, h]
  | none => simp [has, hknown, List.lookup_append, h]

theorem lookup_survey (s : Tools) (tool : Tool) :
    (survey s).2.known.lookup tool = some ((survey s).1.has tool) := by
  have htext := lookup_has .textExtractor s
  have hraster := lookup_has .rasterizer (has .textExtractor s).2
  have hengine := lookup_has .ocrEngine (has .rasterizer (has .textExtractor s).2).2
  cases tool with
  | textExtractor => exact lookup_has_of_known (lookup_has_of_known htext _) _
  | rasterizer => exact lookup_has_of_known hraster _
  | ocrEngine => exact hengine

/-- All answers together. They are kept as a record. -/
def capabilities : StateM Tools Capabilities := fun s =>
  match s.record.all with
  | some c => (c, s)
  | none =>
    ((survey s).1, { (survey s).2 with record := .kept (survey s).1 (lookup_survey s) })

/-- Forgets every answer. -/
def forget (s : Tools) : Tools := { s with known := [], record := .blank [] }

end Tools
end Intake
