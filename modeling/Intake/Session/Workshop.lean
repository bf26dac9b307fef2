import Intake.Layer.TextLayer
import Intake.Layer.Worker
import Intake.Session.Workbench

/-!
# The workshop

A workbench at its site, with the workers and the streams that its commands
have brought about. Commands are carried out here, and time passes.

* `Workshop.openDocument` opens a session for a stored document;
  `Workshop.requestDocument` and `Workshop.finishDocument` do so in two parts,
  between which other things may happen.
* `Workshop.begin` and `Workshop.poll` carry a command on without waiting;
  `Workshop.await` waits for what it delivers.
* `Workshop.settle` carries on what is in the background.
* `Workshop.drive` runs a chain of commands to its end.
-/

namespace Intake

open Text

/-- A command that was given out. -/
inductive Task where
  /-- It has not begun. -/
  | fresh (c : Command)
  /-- It waits for what it is to deliver. -/
  | waiting (c : Command)
  /-- It has ended; a command whose session was cancelled delivers nothing, and
  neither does one that was given up. -/
  | ended (d : Option Delivery)

/-- A workbench at its site. -/
structure Workshop where
  bench : Workbench
  site : Site := {}
  /-- The time that passed in waiting. -/
  now : Float := 0
  /-- Workers go by their places, and so do streams. -/
  workers : List Worker := []
  streams : List ChatStream := []
  /-- Workers wait for every program, even for one that ends at once. -/
  stepwise : Bool := false
  /-- The workbench knows which tools are there. -/
  surveyed : Bool := false
  /-- Starting a worker fails. -/
  startFault : Option Fault := none
  /-- The number of closings that were seen to. -/
  closingsDone : Nat := 0

namespace Workshop

/-! ## The workbench -/

/-- Does something at the workbench; its records go to the site's logbook. -/
def work {α : Type} (f : Float → Workbench → Workbench × α) : StateM Workshop α := fun s =>
  let (bench, a) := f s.site.book.clock s.bench
  let site := (bench.records.drop s.bench.records.length).foldl
    (fun (site : Site) r => site.note r.source r.level r.text) s.site
  (a, { s with bench := bench, site := site })

/-- Takes a turn at the workbench. -/
def turn (f : Float → Workbench → Turn) : StateM Workshop (Except Fault (Option Command)) :=
  work fun now bench =>
    let t := f now bench
    (t.bench, t.outcome)

/-- Takes what is delivered. -/
def handle (d : Delivery) : StateM Workshop (Except Fault (Option Command)) :=
  turn fun now bench => bench.handle now d

/-- Finds out which tools are there when that matters for the first time. -/
def survey (mime : String) : StateM Workshop Unit := fun s =>
  if s.surveyed || ! (Mime.isPdf mime || Mime.isImage mime) then ((), s)
  else
    let (capabilities, site) := s.site.ask Tools.capabilities
    ((), { s with
      surveyed := true, site := site, bench := { s.bench with capabilities := capabilities } })

/-- Opens a session. -/
def «open» (document : Int) (filename : String) (data : Utf8.Bytes) (mime text : String) :
    StateM Workshop (Except Fault (Option Command)) := do
  survey mime
  turn fun now bench => bench.open now document filename data mime text

/-- The text of a stored document: what is stored, or else its text layer. -/
def textOf (d : Document) (data : Utf8.Bytes) : StateM Workshop (Except Fault String) := fun s =>
  if d.extractedText.isEmpty then
    let (text, site) := TextLayer.extract data d.mimeType (some s.bench.settings.textTimeout)
      { s.site with signal := none }
    (text, { s with site := { site with signal := s.site.signal } })
  else (.ok d.extractedText, s)

/-- Opens a session for a stored document. -/
def openDocument (id : Int) : StateM Workshop (Except Fault (Option Command)) := do
  match (← get).bench.load id with
  | .error e => return .error e
  | .ok (d, data) =>
    let text ← textOf d data
    match ← work fun _ bench => bench.usableText d text with
    | .error e => return .error e
    | .ok text => «open» d.id d.fileName data d.mimeType text

/-! ## Openings under way -/

/-- The opening of a stored document whose text a program is to put out. -/
structure Opening where
  document : Document
  data : Utf8.Bytes
  text : Started

/-- Does something at the site that no session's cancellation touches. -/
def unsignalled {α : Type} (shell : Shell α) : StateM Workshop (Except Fault α) := fun s =>
  let (a, site) := shell { s.site with signal := none }
  (a, { s with site := { site with signal := s.site.signal } })

/-- Opens a session for a stored document whose text has been asked for. -/
def openWith (d : Document) (data : Utf8.Bytes) (text : Except Fault String) :
    StateM Workshop (Except Fault (Option Command)) := do
  match ← work fun _ bench => bench.usableText d text with
  | .error e => return .error e
  | .ok text => «open» d.id d.fileName data d.mimeType text

/-- Asks for the text of a stored document: gives the text, or the program
that is to put it out. -/
def askText (d : Document) (data : Utf8.Bytes) :
    StateM Workshop (Except Fault (String ⊕ Started)) := fun s =>
  if d.extractedText.isEmpty then
    unsignalled (TextLayer.start data d.mimeType (some s.bench.settings.textTimeout)) s
  else (.ok (.inl d.extractedText), s)

/-- Begins to open a session for a stored document. Unless the text has to be
waited for, that is all. -/
def requestDocument (id : Int) : StateM Workshop (Except Fault (Option Command) ⊕ Opening) := do
  match (← get).bench.load id with
  | .error e => return .inl (.error e)
  | .ok (d, data) =>
    match ← askText d data with
    | .ok (.inr p) => return .inr ⟨d, data, p⟩
    | .ok (.inl text) => return .inl (← openWith d data (.ok text))
    | .error e => return .inl (← openWith d data (.error e))

/-- Goes on to open a session once the program has ended. -/
def finishDocument (o : Opening) : StateM Workshop (Except Fault (Option Command)) := do
  let text ← unsignalled (TextLayer.finish o.text)
  openWith o.document o.data text

/-! ## Commands -/

/-- Whether a session's cancellation has fired. -/
def hasFired (s : Workshop) (owner : Nat) : Bool := s.bench.hasFired owner

/-- Starts a worker; its session is told the number of its stream. -/
def startWorker (owner : Nat) (plan : Plan) : StateM Workshop Nat := fun s =>
  let (worker, site) := Worker.start owner s.now (s.hasFired owner) s.stepwise plan s.site
  let bench := s.bench.onSession fun session =>
    if session.number = owner then { session with progress := some s.workers.length } else session
  (s.workers.length, { s with site := site, bench := bench, workers := s.workers ++ [worker] })

/-- Reads the next event of a worker; `none` while nothing has arrived. -/
def readProgress (owner stream : Nat) : StateM Workshop (Option (Option Delivery)) := fun s =>
  match s.workers[stream]? with
  | none => (none, s)
  | some worker =>
    let (read, events) := worker.events.next
    let s := { s with workers := s.workers.set stream { worker with events := events } }
    match read with
    | .waiting => (none, s)
    | read => (some ((ProgressStream.awaited read).map (.progress owner)), s)

/-- What a read of a reply delivers. A cancellation delivers nothing, and
neither does a reader that was given up. -/
def chunkOf (owner : Nat) : StreamRead → Option Delivery
  | .chunk c => some (.chunk owner c)
  | .exhausted => some (.chunk owner .last)
  | .failed e => if e.isSilent then none else some (.chunk owner (.broken e))
  | .waiting => none

/-- A response that cannot be read on leaves a record. -/
def noteBroken (stream : ChatStream) (read : StreamRead) (site : Site) : Site :=
  match stream.supply, read with
  | .response _, .chunk { fault := some e, .. } =>
    site.note .chat .warning ("LLM stream failed: " ++ Logbook.faultText e)
  | _, _ => site

/-- Reads the next chunk of a reply; `none` while nothing has arrived. -/
def readChunk (owner stream : Nat) : StateM Workshop (Option (Option Delivery)) := fun s =>
  match s.streams[stream]? with
  | none => (none, s)
  | some chat =>
    let (read, seconds, left) := chat.read
    let site := noteBroken chat read { s.site with book := s.site.book.tick seconds }
    let s := { s with streams := s.streams.set stream left, site := site }
    match read with
    | .waiting => (none, s)
    | read => (some (chunkOf owner read), s)

/-- Asks a model for a reply. -/
def openReply (owner : Nat) (client : ChatClient) (messages : List Message) :
    StateM Workshop (Option Delivery) := fun s =>
  let (answer, seconds, desk) := s.site.desk.openStream client messages
  let s := { s with site := { s.site with desk := desk, book := s.site.book.tick seconds } }
  match answer with
  | .ok stream =>
    (some (.replyOpened owner s.streams.length), { s with streams := s.streams ++ [stream] })
  | .error e => (if e.isSilent then none else some (.chunk owner (.broken e)), s)

/-- A read as a task: it goes on waiting while nothing has arrived. -/
def taskOf (c : Command) : Option (Option Delivery) → Task
  | some d => .ended d
  | none => .waiting c

/-- Carries on a command that waits. Once its session is cancelled it ends
and delivers nothing. -/
def poll (c : Command) : StateM Workshop Task := do
  let fired := (← get).hasFired c.owner
  match c with
  | .awaitProgress owner none =>
    return .ended (some (.progress owner (.failed (.unopened .progress))))
  | .awaitChunk owner none => return .ended (some (.chunk owner (.broken (.unopened .reply))))
  | .awaitProgress owner (some stream) =>
    if fired then return .ended none else return taskOf c (← readProgress owner stream)
  | .awaitChunk owner (some stream) =>
    if fired then return .ended none else return taskOf c (← readChunk owner stream)
  | _ => return .waiting c

/-- Begins a command. A worker is started in any case, a model is asked
only while the session is not cancelled. -/
def begin (c : Command) : StateM Workshop Task := do
  let s ← get
  match c with
  | .readPages owner data mime cap =>
    match s.startFault with
    | some e => return .ended (if e.isAbandoned then none else some (.progress owner (.failed e)))
    | none =>
      let stream ← startWorker owner (Plan.forDocument s.site.scratch data mime cap)
      poll (.awaitProgress owner (some stream))
  | .openReply owner client messages =>
    if s.hasFired owner then return .ended none
    else return .ended (← openReply owner client messages)
  | c => poll c

/-- Carries a task on as far as it goes without waiting. -/
def proceed : Task → StateM Workshop Task
  | .fresh c => begin c
  | .waiting c => poll c
  | .ended d => return .ended d

/-! ## The background -/

/-- Changes every worker. -/
def eachWorker (f : Worker → StateM Site Worker) : StateM Workshop Unit := fun s =>
  let (workers, site) := (s.workers.mapM f).run s.site
  ((), { s with workers := workers, site := site })

/-- Stops the workers whose session was cancelled. -/
def haltFired : StateM Workshop Unit := do
  let s ← get
  eachWorker fun w => if s.hasFired w.owner then w.halt s.now else return w

/-- Lets every worker get on by one program that ends at once. -/
def stride : StateM Workshop Unit := do
  let s ← get
  eachWorker fun w => if w.isReady then w.resume s.now s.stepwise else return w

/-- Whether some worker can get on at once. -/
def isReady (s : Workshop) : Bool := s.workers.any (·.isReady)

/-- The first of the programs waited for that ends by itself. -/
def earliest : List Worker → Option (Nat × Float)
  | [] => none
  | w :: rest =>
    match w.due?, (earliest rest).map fun (i, t) => (i + 1, t) with
    | some t, some (i, u) => if u < t then some (i, u) else some (0, t)
    | some t, none => some (0, t)
    | none, later => later

/-- Lets time pass until a program ends by itself. Tells whether one did. -/
def pass : StateM Workshop Bool := fun s =>
  match earliest s.workers with
  | none => (false, s)
  | some (i, t) =>
    match s.workers[i]? with
    | none => (false, s)
    | some w =>
      let (w, site) := w.resume t s.stepwise s.site
      (true, { s with now := t, workers := s.workers.set i w, site := site })

/-- Says that a stream could not be closed. -/
def closingText (e : Fault) : String :=
  "Closing model stream failed: " ++ e.display

/-- Closes a stream. -/
def closeStream (s : Workshop) (i : Nat) : Workshop :=
  match s.streams[i]? with
  | none => s
  | some stream =>
    let s := { s with streams := s.streams.set i stream.close }
    match stream.closeReport with
    | .error e => { s with site := s.site.note .session .debug (closingText e) }
    | .ok () => s

/-- Closes the streams that are to be closed. -/
def closeStreams : StateM Workshop Unit := modify fun s =>
  { (s.bench.closings.drop s.closingsDone).foldl closeStream s with
    closingsDone := s.bench.closings.length }

/-- Leaves the streams open that are to be closed. -/
def leaveOpen : StateM Workshop Unit := modify fun s =>
  { s with closingsDone := s.bench.closings.length }

/-- Carries on what is in the background, without waiting. -/
def settle : StateM Workshop Unit := do
  haltFired
  closeStreams

/-- The number of streams that were closed. -/
def closedCount (s : Workshop) : Nat := s.streams.countP (·.closed)

/-! ## Waiting -/

/-- A bound on the events, chunks and programs that are still to come. -/
def remaining (s : Workshop) : Nat :=
  let total (counts : List Nat) : Nat := counts.foldl (· + ·) 0
  let scripts := s.site.scripts.flatMap (·.2)
  let supply : Supply → Nat
    | .response parts => parts.length
    | .chunks items => items.length
  let parts : Answer → Nat
    | .streamed parts => parts.length
    | _ => 1
  let programs : Stage → Nat
    | .over => 0
    | .waits r script _ _ => (script.files r).length + r.arguments.length
  16 + total (scripts.map fun p => 4 * (p.suffixes.length + p.pages.getD 0 + 1))
    + total (s.site.desk.replies.map fun r => parts r.answer + 4)
    + total ((s.site.desk.streams ++ s.streams).map fun t => supply t.supply + 4)
    + total (s.workers.map fun w => w.events.arrived.length + programs w.stage + 4)

/-- Waits for what a task delivers, for at most so many programs. -/
def awaitWithin : Nat → Task → StateM Workshop (Option Delivery)
  | 0, _ => return none
  | fuel + 1, task => do
    match ← proceed task with
    | .ended d => return d
    | task => if ← pass then awaitWithin fuel task else return none

/-- Waits for what a task delivers. What can never come counts as nothing. -/
def await (task : Task) : StateM Workshop (Option Delivery) := do
  awaitWithin (← get).remaining task

/-- Runs a chain of commands and counts what is handled, at most so often. -/
def driveWithin : Nat → Nat → Option Command → StateM Workshop (Except Fault Nat)
  | 0, handled, _ => return .ok handled
  | _ + 1, handled, none => return .ok handled
  | fuel + 1, handled, some c => do
    match ← await (.fresh c) with
    | none => return .ok handled
    | some d =>
      match ← handle d with
      | .error e => return .error e
      | .ok next => driveWithin fuel (handled + 1) next

/-- Runs a chain of commands to its end and counts what is handled. A command
that is given up ends the chain like one that has nothing to deliver. -/
def drive (c : Option Command) : StateM Workshop (Except Fault Nat) := do
  driveWithin (2 * (← get).remaining) 0 c

end Workshop
end Intake
