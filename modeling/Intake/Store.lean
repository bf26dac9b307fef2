import Intake.Fault
import Intake.FileName
import Intake.Hints.Basic
import Intake.Json.Basic
import Intake.Text.Utf8

/-!
# The document store

Documents with their bytes, and the names of records that exist. Any
access may be made to fail; a failing access changes nothing.

* `Store.get`, `Store.update` and `Store.updateOcr` read and write records;
  `find?_put` and `find?_put_of_ne` say how they meet.
* `Store.applyHints` writes accepted hints; a title or notes that a person
  wrote are kept (`Document.withHints`).
* `Store.knownEntities` gives the names, none when that access fails.
-/

namespace Intake

open Text

/-- A stored document. -/
structure Document where
  id : Int
  fileName : String
  mimeType : String
  title : Prose := []
  notes : Prose := []
  size : Nat := 0
  extractedText : String := ""
  ocrText : String := ""
  ocrTable : String := ""
  deriving DecidableEq

/-- The accesses of a store. -/
inductive Access where
  | copyOut
  | updateOcr
  | get
  | update
  | names
  deriving DecidableEq, Repr

/-- Documents by number, their bytes and the known names. -/
structure Store where
  documents : List Document := []
  blobs : List (Int × Utf8.Bytes) := []
  entities : KnownEntities := {}
  /-- The accesses that fail, and how. -/
  failing : List (Access × Fault) := []

/-- A document with accepted hints. The title is replaced only while it is
the one made from the file name, and the summary fills empty notes. -/
def Document.withHints (d : Document) (h : Hints) : Document :=
  { d with
    title := if ! h.title.isEmpty && d.title == Prose.ofString (FileName.title d.fileName)
      then h.title else d.title
    notes := if ! h.summary.isEmpty && d.notes.isEmpty then h.summary else d.notes }

/-- A document as a JSON object. -/
def Document.toJson (d : Document) : Json :=
  .object
    [("id", .int d.id), ("file_name", .text d.fileName), ("mime_type", .text d.mimeType),
     ("title", .str d.title), ("notes", .str d.notes), ("size", .int d.size),
     ("extracted_text", .text d.extractedText), ("ocr_text", .text d.ocrText),
     ("ocr_tsv", .text d.ocrTable)]

namespace Store

/-- The document of a number. -/
def find? (s : Store) (id : Int) : Option Document := s.documents.find? (·.id == id)

/-- Fails when an access is made to fail. -/
def permit (s : Store) (a : Access) : Except Fault Unit :=
  match s.failing.lookup a with
  | some e => .error e
  | none => .ok ()

/-- The document of a number that has to be there. -/
def require (s : Store) (id : Int) : Except Fault Document :=
  match s.find? id with
  | some d => .ok d
  | none => .error (.store ("document " ++ Number.intText id ++ " not found"))

/-- Puts a document in the place of the one with its number, or at the end. -/
def put (s : Store) (d : Document) : Store :=
  { s with documents :=
      if s.documents.any (·.id == d.id) then
        s.documents.map fun old => if old.id == d.id then d else old
      else s.documents ++ [d] }

/-! ## Accesses -/

/-- Loads a document. -/
def get (s : Store) (id : Int) : Except Fault Document := do
  s.permit .get
  s.require id

/-- Saves a document that is there already. -/
def update (s : Store) (d : Document) : Except Fault Store := do
  s.permit .update
  let _ ← s.require d.id
  return s.put d

/-- Saves the text and the token table read from a document's pages. -/
def updateOcr (s : Store) (id : Int) (text table : String) : Except Fault Store := do
  s.permit .updateOcr
  let d ← s.require id
  return s.put { d with ocrText := text, ocrTable := table }

/-- The bytes of a document and the name of the file they are copied to. No
file has a null character in its name. -/
def copyOut (s : Store) (id : Int) : Except Fault (String × Utf8.Bytes) := do
  s.permit .copyOut
  let d ← s.require id
  if (FileName.lastName d.fileName).contains '\x00' then
    throw (.plain .value "embedded null byte")
  return (Number.intText id ++ "-" ++ FileName.lastName d.fileName, (s.blobs.lookup id).getD [])

/-- The names that are known. -/
def names (s : Store) : Except Fault KnownEntities := do
  s.permit .names
  return s.entities

/-- The number of the next document. -/
def nextId (s : Store) : Int :=
  match s.documents.map (·.id) with
  | [] => 1
  | id :: ids => ids.foldl max id + 1

/-- Adds a document. Its title is made from the file name unless one is
given. -/
def add (s : Store) (fileName : String) (data : Utf8.Bytes) (mimeType : String)
    (title : Option Prose) : Document × Store :=
  let d : Document :=
    { id := s.nextId, fileName := fileName, mimeType := mimeType, size := data.length
      title := title.getD (Prose.ofString (FileName.title fileName)) }
  (d, { s.put d with blobs := (d.id, data) :: s.blobs })

/-- Writes accepted hints into a document. -/
def applyHints (s : Store) (id : Int) (h : Hints) : Except Fault (Document × Store) := do
  let d ← s.get id
  let s ← s.update (d.withHints h)
  return (d.withHints h, s)

/-- The names for a prompt. A prompt does without them when the access
fails; the fault is given beside them. -/
def knownEntities (s : Store) : KnownEntities × Option Fault :=
  match s.names with
  | .ok e => (e, none)
  | .error e => ({}, some e)

/-- What is reported when a prompt does without names. -/
def missingNamesText (e : Fault) : String :=
  "Entity lookup failed, prompting without names: " ++ e.message

/-! ## Laws -/

private theorem find?_replace {docs : List Document} {d : Document}
    (h : docs.any (·.id == d.id) = true) :
    (docs.map fun old => if old.id == d.id then d else old).find? (·.id == d.id) = some d := by
  induction docs with
  | nil => simp at h
  | cons x xs ih =>
    by_cases hx : x.id = d.id
    · simp [hx]
    · have hxs : xs.any (·.id == d.id) = true := by simpa [hx] using h
      rw [List.map_cons, if_neg (by simpa using hx), List.find?_cons_of_neg (by simpa using hx)]
      exact ih hxs

theorem find?_put (s : Store) (d : Document) : (s.put d).find? d.id = some d := by
  unfold put find?
  split
  · rename_i h
    exact find?_replace h
  · rename_i h
    have : s.documents.find? (·.id == d.id) = none := by
      simpa using h
    simp [List.find?_append, this]

private theorem find?_replace_of_ne {docs : List Document} {d : Document} {id : Int}
    (h : id ≠ d.id) :
    (docs.map fun old => if old.id == d.id then d else old).find? (·.id == id) =
      docs.find? (·.id == id) := by
  induction docs with
  | nil => rfl
  | cons x xs ih =>
    by_cases hx : x.id = d.id
    · have : ¬ x.id = id := fun e => h (e.symm.trans hx)
      have : ¬ d.id = id := fun e => h e.symm
      simp_all
    · by_cases hid : x.id = id
      · subst hid
        simp [hx]
      · simp_all

theorem find?_put_of_ne (s : Store) {d : Document} {id : Int} (h : id ≠ d.id) :
    (s.put d).find? id = s.find? id := by
  unfold put find?
  split
  · exact find?_replace_of_ne h
  · have : ¬ d.id = id := fun e => h e.symm
    simp [List.find?_append, this]

end Store
end Intake
