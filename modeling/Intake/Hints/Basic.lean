import Intake.Calendar.Date
import Intake.Text.LetterCase
import Intake.Text.Prose

/-!
# Hints

What a model suggests about a document. Hints fill a document record in
advance and are saved only when they are accepted.

* `DocumentType` and `EntityKind` are closed sets of names;
  `ofName?_name` says that every member is found by its name.
* `Hints` holds every field, each of which may be absent.
* `KnownEntities` are the names a model should reuse.
-/

namespace Intake

open Text

/-- The kinds of documents. -/
inductive DocumentType where
  | quote
  | invoice
  | receipt
  | manual
  | warranty
  | permit
  | inspection
  | contract
  | other
  deriving DecidableEq, Repr

namespace DocumentType

/-- All kinds in order. -/
def all : List DocumentType :=
  [quote, invoice, receipt, manual, warranty, permit, inspection, contract, other]

/-- The name of a kind. -/
def name : DocumentType → String
  | quote => "quote"
  | invoice => "invoice"
  | receipt => "receipt"
  | manual => "manual"
  | warranty => "warranty"
  | permit => "permit"
  | inspection => "inspection"
  | contract => "contract"
  | other => "other"

/-- The kind of a name. -/
def ofName? (name : List Char) : Option DocumentType := all.find? (·.name.toList == name)

theorem ofName?_name (t : DocumentType) : ofName? t.name.toList = some t := by
  cases t <;> decide

end DocumentType

/-- The kinds of records a document can be linked to. -/
inductive EntityKind where
  | project
  | appliance
  | vendor
  | maintenance
  | quote
  | serviceLog
  deriving DecidableEq, Repr

namespace EntityKind

/-- All kinds in order. -/
def all : List EntityKind := [project, appliance, vendor, maintenance, quote, serviceLog]

/-- The name of a kind. -/
def name : EntityKind → String
  | project => "project"
  | appliance => "appliance"
  | vendor => "vendor"
  | maintenance => "maintenance"
  | quote => "quote"
  | serviceLog => "service_log"

/-- The kind of a name. -/
def ofName? (name : List Char) : Option EntityKind := all.find? (·.name.toList == name)

theorem ofName?_name (k : EntityKind) : ofName? k.name.toList = some k := by
  cases k <;> decide

end EntityKind

/-- A recurring maintenance item. -/
structure MaintenanceItem where
  name : Prose
  months : Nat
  months_pos : 0 < months
  deriving DecidableEq

/-- Suggested field values. Amounts are in cents; an absent text is empty. -/
structure Hints where
  documentType : Option DocumentType := none
  title : Prose := []
  summary : Prose := []
  vendor : Prose := []
  total : Option Int := none
  labor : Option Int := none
  materials : Option Int := none
  date : Option Calendar.Date := none
  warrantyExpiry : Option Calendar.Date := none
  entityKind : Option EntityKind := none
  entityName : Prose := []
  maintenance : List MaintenanceItem := []
  notes : Prose := []
  deriving DecidableEq

/-- Names of records that exist already. -/
structure KnownEntities where
  vendors : List String := []
  projects : List String := []
  appliances : List String := []
  deriving DecidableEq, Repr

/-- Whether no name is known. -/
def KnownEntities.isEmpty (e : KnownEntities) : Bool :=
  e.vendors.isEmpty && e.projects.isEmpty && e.appliances.isEmpty

end Intake
