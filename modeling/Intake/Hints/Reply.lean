import Intake.Calendar.Layout
import Intake.Hints.Amount
import Intake.Hints.Basic
import Intake.Json.Reader
import Intake.Text.Fence
import Intake.Text.Quoted

/-!
# Replies

Turns the reply of a model into hints. Only a reply that is no JSON object
is refused; a value of the wrong kind, an unknown name and an entry without
a name or an interval are left out. An amount of more digits than can be
rounded makes the reading fail.

* `Reply.decode` reads the reply as the members of an object.
* `Reply.interpret` reads every field on its own.
* `Reply.read` is the composition.
-/

namespace Intake.Reply

open Text

/-- Why a reply is no JSON object. -/
inductive Malformed where
  | refused (reply : List Char) (r : Json.Refusal)
  | notObject (kind : String)
  deriving DecidableEq, Repr

/-- The wording of a malformed reply. -/
def Malformed.message : Malformed → String
  | .refused reply r => r.message reply
  | .notObject kind => s!"expected a JSON object, got {kind}"

/-- Whether the reply had too many open brackets. -/
def Malformed.isTooDeep : Malformed → Bool
  | .refused _ (.tooDeep _) => true
  | _ => false

/-- Why a reply gives no hints. -/
inductive Failure where
  | malformed (m : Malformed)
  | overflow
  deriving DecidableEq, Repr

/-- The members of the object in a reply; the null reply is an empty one. -/
def decode (reply : List Char) : Except Malformed Json.Members :=
  let body := unfence reply
  match Json.read body with
  | .error r => .error (.refused body r)
  | .ok (.obj members) => .ok members
  | .ok .null => .ok []
  | .ok v => .error (.notObject v.kindName)

/-! ## Fields -/

/-- The string under a name. -/
def prose? (members : Json.Members) (name : String) : Option Prose :=
  match Json.member? members name with
  | some (.str p) => some p
  | _ => none

/-- The trimmed string under a name, empty when there is none. -/
def trimmedProse (members : Json.Members) (name : String) : Prose :=
  match prose? members name with
  | some p => p.trim
  | none => []

/-- The characters under a name; a string with an unpaired half has none. -/
def chars? (members : Json.Members) (name : String) : Option (List Char) :=
  (prose? members name).bind Prose.chars?

/-- The number or string under a name. -/
def quantity (members : Json.Members) (name : String) : Quantity :=
  match Json.member? members name with
  | some v => .ofJson v
  | none => .absent

/-- A name as it is looked up in a closed set. -/
def lookupForm (s : List Char) : List Char := lowered (trim s)

/-- The kind of document under its name. -/
def documentType (members : Json.Members) : Option DocumentType :=
  (chars? members "document_type").bind fun s => DocumentType.ofName? (lookupForm s)

/-- The kind of linked record under its name. -/
def entityKind (members : Json.Members) : Option EntityKind :=
  (chars? members "entity_kind_hint").bind fun s => EntityKind.ofName? (lookupForm s)

/-- The date under a name. -/
def date (members : Json.Members) (name : String) : Option Calendar.Date :=
  (chars? members name).bind Calendar.Date.read?

/-- The amount under a name, in the unit declared beside it. -/
def amount (members : Json.Members) (name : String) : Except Overflow (Option Int) :=
  (quantity members name).cents (chars? members "currency_unit")

/-- A maintenance entry; one without a name or a positive interval is left
out. The interval is read even when the name is missing. -/
def maintenanceItem? (members : Json.Members) : Except Overflow (Option MaintenanceItem) :=
  match (quantity members "interval_months").months with
  | .error e => .error e
  | .ok n =>
    let name := trimmedProse members "name"
    if name.isEmpty then .ok none
    else if h : 0 < n then .ok (some ⟨name, n, h⟩)
    else .ok none

/-- The objects in the list under a name. -/
def objects (members : Json.Members) (name : String) : List Json.Members :=
  match Json.member? members name with
  | some (.arr items) => items.filterMap fun
      | .obj entry => some entry
      | _ => none
  | _ => []

/-- Reads entries in order and keeps those that are complete. -/
def maintenanceItems : List Json.Members → Except Overflow (List MaintenanceItem)
  | [] => .ok []
  | entry :: rest =>
    match maintenanceItem? entry with
    | .error e => .error e
    | .ok item? =>
      match maintenanceItems rest with
      | .error e => .error e
      | .ok items => .ok (item?.toList ++ items)

/-- Reads every field of an object on its own. -/
def interpret (members : Json.Members) : Except Overflow Hints := do
  let maintenance ← maintenanceItems (objects members "maintenance_items")
  let total ← amount members "total_cents"
  let labor ← amount members "labor_cents"
  let materials ← amount members "materials_cents"
  return {
    documentType := documentType members
    title := trimmedProse members "title_suggestion"
    summary := trimmedProse members "summary"
    vendor := trimmedProse members "vendor_hint"
    total := total
    labor := labor
    materials := materials
    date := date members "date"
    warrantyExpiry := date members "warranty_expiry"
    entityKind := entityKind members
    entityName := trimmedProse members "entity_name_hint"
    maintenance := maintenance
    notes := trimmedProse members "notes" }

/-- Reads the hints of a reply. -/
def read (reply : String) : Except Failure Hints :=
  match decode reply.toList with
  | .error m => .error (.malformed m)
  | .ok members =>
    match interpret members with
    | .error _ => .error .overflow
    | .ok hints => .ok hints

end Intake.Reply
