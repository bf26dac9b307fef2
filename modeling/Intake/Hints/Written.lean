import Intake.Hints.Basic
import Intake.Json.Basic

/-!
# Hints as JSON

The written form of hints: every field under its name, in a fixed order,
with what is absent as null or as an empty text.

* `Hints.toJson` makes it; `length_members` says how many fields it has.
-/

namespace Intake

namespace Hints

/-- A value that may be absent. -/
def jsonOr {α : Type} (f : α → Json) : Option α → Json
  | some a => f a
  | none => .null

/-- A maintenance item as a JSON object. -/
def itemJson (m : MaintenanceItem) : Json :=
  .object [("name", .str m.name), ("interval_months", .int m.months)]

/-- The fields of hints by their names. -/
def members (h : Hints) : List (String × Json) :=
  [("document_type", jsonOr (.text ·.name) h.documentType), ("title_suggestion", .str h.title),
   ("summary", .str h.summary), ("vendor_hint", .str h.vendor),
   ("total_cents", jsonOr .int h.total), ("labor_cents", jsonOr .int h.labor),
   ("materials_cents", jsonOr .int h.materials), ("date", jsonOr (.text ·.iso) h.date),
   ("warranty_expiry", jsonOr (.text ·.iso) h.warrantyExpiry),
   ("entity_kind_hint", jsonOr (.text ·.name) h.entityKind),
   ("entity_name_hint", .str h.entityName), ("maintenance_items", .arr (h.maintenance.map itemJson)),
   ("notes", .str h.notes)]

/-- Hints as a JSON object. -/
def toJson (h : Hints) : Json := .object h.members

theorem length_members (h : Hints) : h.members.length = 13 := rfl

end Hints
end Intake
