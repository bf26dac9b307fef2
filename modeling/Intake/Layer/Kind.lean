/-!
# Layers

The layers of an extraction, in the order in which they run.

* `LayerKind.all` lists them; `mem_all` says that none is missing.
-/

namespace Intake

/-- A layer: the text a document carries, what its pages show, and what a
model makes of both. -/
inductive LayerKind where
  | text
  | ocr
  | llm
  deriving DecidableEq, Repr

namespace LayerKind

/-- All layers, the first one first. -/
def all : List LayerKind := [text, ocr, llm]

/-- The name of a layer. -/
def name : LayerKind → String
  | text => "text"
  | ocr => "ocr"
  | llm => "llm"

theorem mem_all (k : LayerKind) : k ∈ all := by cases k <;> decide

end LayerKind
end Intake
