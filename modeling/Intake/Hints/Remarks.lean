import Intake.Hints.Reply

/-!
# Remarks on replies

What is said about a reply that was read: names that are in no closed set
and amounts of too many digits, which are left out of the hints.

* `Reply.remarks` lists them in the order in which fields are read, up to
  the field that makes the reading fail.
-/

namespace Intake.Reply

open Text

/-- A text in quotes, where an unpaired half is shown by its number. -/
def quotedProse (p : Prose) : String :=
  let q := quoteMark (p.filterMap fun
    | .char c => some c
    | .half _ => none)
  String.ofList (q :: p.flatMap (fun
    | .char c => escapeChar q c
    | .half unit => '\\' :: 'u' :: hex 4 unit.toNat) ++ [q])

/-- A name that is not in its closed set. -/
def unknownName (members : Json.Members) (name : String) (known : Bool) : List String :=
  match prose? members name with
  | some p =>
    if p.isEmpty || known then [] else ["Dropping unknown " ++ name ++ ": " ++ quotedProse p]
  | none => []

/-- How much of an unread amount is shown. -/
def shownAmount : Nat := 40

/-- An amount with more digits than can be read. -/
def overlongAmount (members : Json.Members) (name : String) : List String :=
  match quantity members name with
  | .text s =>
    if Quantity.isOverlongText s then
      ["Unparseable money string: " ++ String.ofList (quotedChars ((trim s).take shownAmount))]
    else []
  | _ => []

/-- The remarks on amounts, followed by others unless an amount makes the
reading fail. -/
def amountRemarks (members : Json.Members) (others : List String) : List String → List String
  | [] => others
  | name :: rest =>
    overlongAmount members name ++
      match amount members name with
      | .error _ => []
      | .ok _ => amountRemarks members others rest

/-- The remarks on the members of a reply. -/
def memberRemarks (members : Json.Members) : List String :=
  match maintenanceItems (objects members "maintenance_items") with
  | .error _ => []
  | .ok _ =>
    unknownName members "document_type" (documentType members).isSome ++
      amountRemarks members
        (unknownName members "entity_kind_hint" (entityKind members).isSome)
        ["total_cents", "labor_cents", "materials_cents"]

/-- The remarks on a reply. -/
def remarks (reply : String) : List String :=
  match decode reply.toList with
  | .error _ => []
  | .ok members => memberRemarks members

end Intake.Reply
