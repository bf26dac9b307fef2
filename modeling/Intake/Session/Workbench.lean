import Intake.Hints.Remarks
import Intake.Journal.Basic
import Intake.Program.Tools
import Intake.Session.Delivery
import Intake.Session.Steps
import Intake.Settings
import Intake.Store

/-!
# The workbench

Owns the one open session. What a person or a command does to it is a
`Turn`: the workbench afterwards and the command to be carried out next.
Nothing here waits, and nothing but an accepted session is stored.

* `Workbench.open` and `Workbench.cancel` begin and end a session.
* `Workbench.accept` saves its results, `Workbench.rerun` asks the model
  again.
* `Workbench.handle` takes what is delivered; `handle_of_not_owner` says
  that what is for another session changes nothing but the streams to be
  closed.
-/

namespace Intake

open Text

/-- The owner of the open session. -/
structure Workbench where
  /-- Without a store nothing is saved. -/
  store : Option Store := none
  client : Option ChatClient := none
  settings : Settings
  capabilities : Capabilities := ⟨false, false, false⟩
  session : Option Session := none
  /-- What went wrong when results were saved. -/
  statusError : String := ""
  /-- The number of sessions opened so far. -/
  opened : Nat := 0
  /-- The sessions whose cancellation has fired, by their numbers. -/
  fired : List Nat := []
  /-- The streams that are to be closed, in order. -/
  closings : List Nat := []
  records : List Record := []

/-- The workbench after something was done, with the command to be carried
out next or the fault that broke it off. -/
structure Turn where
  bench : Workbench
  outcome : Except Fault (Option Command) := .ok none

namespace Workbench

/-- The client to be asked: there is one and the model is enabled. -/
def clientInUse (w : Workbench) : Option ChatClient :=
  if w.settings.modelEnabled then w.client else none

/-- The name shown for the model. -/
def modelLabel (w : Workbench) : String :=
  match w.clientInUse with
  | some client => if client.model.isEmpty then w.settings.model else client.model
  | none => w.settings.model

/-- Puts a session in the place of the open one. -/
def withSession (w : Workbench) (s : Session) : Workbench := { w with session := some s }

/-- Takes a record. -/
def note (w : Workbench) (source : Source) (level : Level) (text : String) : Workbench :=
  { w with records := w.records ++ [⟨source, level, text⟩] }

/-- Whether a session's cancellation has fired. -/
def hasFired (w : Workbench) (number : Nat) : Bool := w.fired.contains number

/-- Fires the cancellation of the open session and nothing else. -/
def fire (w : Workbench) : Workbench :=
  match w.session with
  | some s => { w with fired := w.fired ++ [s.number] }
  | none => w

/-! ## Starting steps -/

/-- The names for a prompt. A store that fails gives none and leaves a
record. -/
def knownEntities (w : Workbench) : KnownEntities × Workbench :=
  match w.store with
  | none => ({}, w)
  | some store =>
    match store.knownEntities with
    | (names, none) => (names, w)
    | (names, some e) => (names, w.note .store .warning (Store.missingNamesText e))

/-- Starts the model's step of a session with what is known by now. -/
def startModel (w : Workbench) (now : Float) (client : ChatClient) (s : Session) : Turn :=
  let s := s.modelStarted now w.modelLabel
  let (names, w) := w.knownEntities
  ⟨w.withSession s, .ok (some (.openReply s.number client (Prompt.build names s.source).messages))⟩

/-- Goes on with the model after the pages, or ends the session's work. -/
def afterPages (w : Workbench) (now : Float) (s : Session) : Turn :=
  match w.clientInUse, s.hasLlm with
  | some client, true => w.startModel now client s
  | _, _ => ⟨w.withSession { s with done := true }, .ok none⟩

/-! ## Sessions -/

/-- Ends the open session and drops its results. Its background work is
cancelled and its stream closed. -/
def cancel (w : Workbench) : Workbench :=
  match w.session with
  | none => w
  | some s =>
    { w with
      session := none
      fired := w.fired ++ [s.number]
      closings := w.closings ++ s.reply.toList }

/-- Whether the pages of a document can be read. -/
def canReadPages (w : Workbench) (mime : String) : Bool :=
  (Mime.isPdf mime && w.capabilities.readsPdf) || (Mime.isImage mime && w.capabilities.readsImages)

/-- A new session for a document whose text layer is known. -/
def newSession (w : Workbench) (document : Int) (filename : String) (data : Utf8.Bytes)
    (mime text : String) : Session :=
  let hasText := ! Mime.isImage mime
  { number := w.opened + 1
    document := document
    filename := filename
    mime := mime
    data := data
    maxPages := w.settings.maxPages
    hasText := hasText
    hasOcr := w.canReadPages mime
    hasLlm := w.clientInUse.isSome
    text := if hasText then .ofText mime text else {}
    pdfText := if Mime.isPdf mime then text else ""
    extractedText := text }

/-- Opens a session in the place of the one that is open and starts its
first step. Without any step to run in the background there is none. -/
def «open» (w : Workbench) (now : Float) (document : Int) (filename : String)
    (data : Utf8.Bytes) (mime text : String) : Turn :=
  let s := w.newSession document filename data mime text
  let w := w.cancel
  let fresh := { w with opened := s.number, statusError := "" }
  match s.hasOcr, w.clientInUse with
  | true, _ =>
    ⟨fresh.withSession { s with ocr := s.ocr.start now "" },
     .ok (some (.readPages s.number s.data s.mime s.maxPages))⟩
  | false, some client => fresh.startModel now client s
  | false, none =>
    ⟨w.note .session .debug
      ("No async extraction steps apply to " ++ filename ++ " (" ++ mime ++ ")"), .ok none⟩

/-! ## Stored documents -/

/-- A stored document with its bytes. -/
def load (w : Workbench) (id : Int) : Except Fault (Document × Utf8.Bytes) := do
  match w.store with
  | none => .error (.store "no document store configured")
  | some store =>
    let d ← store.get id
    let (_, data) ← store.copyOut id
    return (d, data)

/-- The text of a document as far as it could be had. A program that failed
leaves a record, and the document counts as one without text. -/
def usableText (w : Workbench) (d : Document) (text : Except Fault String) :
    Workbench × Except Fault String :=
  match text with
  | .ok text => (w, .ok text)
  | .error e =>
    if e.isTool then
      (w.note .session .warning
        ("Text extraction failed for " ++ d.fileName ++ ": " ++ e.message), .ok "")
    else (w, .error e)

/-! ## Saving -/

/-- Saves the results of a session. What was written before an access
failed stays written. -/
def save (store : Store) (s : Session) : Store × Except Fault Unit :=
  let written : Except Fault Store :=
    if s.pages.text.isEmpty && s.pages.table.isEmpty then .ok store
    else store.updateOcr s.document s.pages.text s.pages.table
  match written with
  | .error e => (store, .error e)
  | .ok store =>
    match s.hints with
    | none => (store, .ok ())
    | some h =>
      match store.applyHints s.document h with
      | .error e => (store, .error e)
      | .ok (_, store) => (store, .ok ())

/-- Keeps the session open when its results could not be saved. -/
def saveFailed (w : Workbench) (s : Session) (e : Fault) : Workbench :=
  { w.note .session .error ("Saving extraction for " ++ s.filename ++ " failed: " ++ e.message)
    with statusError := "save extraction: " ++ e.message }

/-- Saves the results of the open session and closes it, when it is
complete and no step has failed. Tells whether it did. -/
def accept (w : Workbench) : Workbench × Except Fault Bool :=
  match w.session with
  | none => (w, .ok false)
  | some s =>
    if ! s.canAccept then (w, .ok false)
    else
      match w.store with
      | none => ({ w with session := none }, .ok true)
      | some store =>
        match save store s with
        | (store, .ok ()) => ({ w with store := some store, session := none }, .ok true)
        | (store, .error e) =>
          let w := { w with store := some store }
          if e.isStore then (w.saveFailed s e, .ok false) else (w, .error e)

/-! ## The model again -/

/-- Whether the model's step of a session may start again: the session is
complete and the cursor is on that step. -/
def canRerun (s : Session) : Bool := s.done && s.hasLlm && decide (s.cursorStep = .llm)

/-- Starts the model's step again from scratch. -/
def rerun (w : Workbench) (now : Float) : Turn :=
  match w.session, w.clientInUse with
  | some s, some client =>
    if canRerun s then w.startModel now client s.modelReset else ⟨w, .ok none⟩
  | _, _ => ⟨w, .ok none⟩

/-! ## Deliveries -/

/-- Takes an event of the worker that reads the pages. -/
def onProgress (w : Workbench) (now : Float) (s : Session) (p : Progress) : Turn :=
  match p.fault with
  | some e => w.afterPages now (s.pagesFailed now e)
  | none =>
    if p.done then w.afterPages now (s.pagesRead now ⟨p.text, p.table⟩)
    else ⟨w.withSession (s.pagesMoved p), .ok (some (.awaitProgress s.number s.progress))⟩

/-- Reads the whole reply. A number of too many digits breaks the reading
off and leaves the step running. -/
def readReply (w : Workbench) (s : Session) : Turn :=
  let w := (Reply.remarks s.replyText).foldl (fun w text => w.note .reply .debug text) w
  match Reply.read s.replyText with
  | .ok hints => ⟨w.withSession (s.replyRead hints), .ok none⟩
  | .error (.malformed m) => ⟨w.withSession (s.replyRefused m), .ok none⟩
  | .error .overflow => ⟨w.withSession s, .error .overflow⟩

/-- Takes a chunk of the reply. -/
def onChunk (w : Workbench) (now : Float) (s : Session) (c : Chunk) : Turn :=
  match c.fault with
  | some e => ⟨w.withSession (s.replyFailed now e), .ok none⟩
  | none =>
    let s := s.replyGrown c.text
    if c.done then w.readReply (s.replyEnded now)
    else ⟨w.withSession s, .ok (some (.awaitChunk s.number s.reply))⟩

/-- Changes the open session, if there is one. -/
def onSession (w : Workbench) (f : Session → Session) : Workbench :=
  { w with session := w.session.map f }

/-- Takes a key. Without a session a key does nothing. -/
def onKey (w : Workbench) (now : Float) (k : Key) : Turn :=
  match w.session, k with
  | some _, .escape => ⟨w.cancel, .ok none⟩
  | some _, .rerun => w.rerun now
  | some _, .accept => ⟨w.accept.1, w.accept.2.map fun _ => none⟩
  | some _, .down => ⟨w.onSession (·.moveBy 1), .ok none⟩
  | some _, .up => ⟨w.onSession (·.moveBy (-1)), .ok none⟩
  | some _, .enter => ⟨w.onSession Session.toggle, .ok none⟩
  | _, _ => ⟨w, .ok none⟩

/-- What is for no open session is dropped; a reply that was opened for it
is closed unread. -/
def drop (w : Workbench) (d : Delivery) : Workbench :=
  match d with
  | .replyOpened _ stream => { w with closings := w.closings ++ [stream] }
  | _ => w

/-- Takes what is for the open session. -/
def take (w : Workbench) (now : Float) (s : Session) (d : Delivery) : Turn :=
  match d with
  | .progress _ p => w.onProgress now s p
  | .replyOpened _ stream =>
    ⟨w.withSession { s with reply := some stream }, .ok (some (.awaitChunk s.number (some stream)))⟩
  | .chunk _ c => w.onChunk now s c
  | .key k => w.onKey now k
  | .other _ => ⟨w, .ok none⟩

/-- Takes what is delivered. -/
def handle (w : Workbench) (now : Float) (d : Delivery) : Turn :=
  match d.owner?, w.session with
  | none, some s => w.take now s d
  | none, none => ⟨w, .ok none⟩
  | some owner, some s => if s.number = owner then w.take now s d else ⟨w.drop d, .ok none⟩
  | some _, none => ⟨w.drop d, .ok none⟩

theorem handle_of_not_owner {w : Workbench} {d : Delivery} {owner : Nat} (now : Float)
    (hd : d.owner? = some owner) (h : ∀ s ∈ w.session, s.number ≠ owner) :
    w.handle now d = ⟨w.drop d, .ok none⟩ := by
  unfold handle
  rw [hd]
  cases hs : w.session with
  | none => rfl
  | some s => simp [h s (by simp [hs])]

end Workbench
end Intake
