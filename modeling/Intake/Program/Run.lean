import Intake.Chat.Basic
import Intake.Journal.Recorder
import Intake.Number.Reading
import Intake.Program.Wait
import Intake.Program.Tools

/-!
# Running programs

A `Site` is where an extraction takes place: its programs and what they
will do, its model, its logbook and its cancellation. A `Shell` computation
runs there and may fail; what it did before it failed stays done.

* `Shell.run` starts a program and waits for it under a time limit and the
  cancellation; `Shell.start` and `Shell.awaitStarted` do the one and the other,
  and `run_eq` says that they make up the whole.
* `Shell.stop` stops a program, which may be gone by then; `await_eq` says
  which runs stop theirs.
* `Shell.check` fails once the cancellation has fired;
  `run_of_fired` says that nothing is started then.
-/

namespace Intake

open Text Number

/-- One start of a program. -/
structure Call where
  arguments : List String
  /-- How often it was tried to stop it. -/
  stops : Nat := 0
  deriving DecidableEq, Repr

/-- Whether it was stopped before it ended. -/
def Call.stopped (c : Call) : Bool := decide (0 < c.stops)

/-- Where an extraction takes place. -/
structure Site where
  book : Logbook := {}
  tools : Tools := {}
  /-- The folder for files that are needed for a moment. -/
  scratch : String := ""
  /-- What the next starts of each program will do. -/
  scripts : List (String × List Script) := []
  calls : List Call := []
  /-- Whether the cancellation has fired; `none` if there is none. -/
  signal : Option Bool := none
  /-- The caller is given up as soon as it has to wait. -/
  abandoned : Bool := false
  desk : Desk := {}

/-- A computation at a site. -/
abbrev Shell := ExceptT Fault (StateM Site)

/-- The class of fault of a program that ends with an error. -/
inductive FailureKind where
  | tool
  | rasterize
  deriving DecidableEq, Repr

/-- A failed program as a fault. -/
def FailureKind.fault : FailureKind → ToolFailure → Fault
  | tool => .tool
  | rasterize => .rasterize

/-- A program to be run. -/
structure Request where
  program : String
  arguments : List String
  limit : Option Float := none
  failure : FailureKind := .tool

/-- A program that was started and is to be waited for. -/
structure Started where
  request : Request
  script : Script
  /-- Its place among all starts. -/
  call : Nat

/-- The program and its arguments. -/
def Request.words (r : Request) : List String := r.program :: r.arguments

/-- What a program that ended well has left. -/
structure Yield where
  output : Utf8.Bytes
  /-- The paths of the files it made. -/
  files : List String

namespace Site

/-- Takes a record. -/
def note (s : Site) (source : Source) (level : Level) (text : String) : Site :=
  { s with book := s.book.note source level text }

/-- Takes what the next start of a program will do. A program of which
nothing is known ends at once and well. -/
def takeScript (s : Site) (program : String) : Script × Site :=
  ((s.scripts.lookup program).bind List.head? |>.getD {},
   { s with scripts := s.scripts.map fun (name, scripts) =>
      (name, if name == program then scripts.tail else scripts) })

/-- Asks about tools; a tool that is found missing is noted. -/
def ask {α : Type} (question : StateM Tools α) (s : Site) : α × Site :=
  let (answer, tools) := question s.tools
  let missing := (tools.lookups.drop s.tools.lookups.length).filter fun t =>
    tools.known.lookup t == some false
  let s := missing.foldl (fun s t => s.note .tools .debug
    (t.name ++ " not found on PATH, related extraction layer disabled")) s
  (answer, { s with tools := tools })

/-- Fires the cancellation, if there is one. -/
def fire (s : Site) (fires : Bool) : Site := { s with signal := s.signal.map (· || fires) }

/-- Whether the cancellation has fired. -/
def fired (s : Site) : Bool := s.signal == some true

/-- Stops what was started. -/
def stopCall (s : Site) (call : Nat) : Site :=
  { s with calls := s.calls.modify call fun c => { c with stops := c.stops + 1 } }

/-- Stops what was started last. -/
def stopLatest (s : Site) : Site := s.stopCall (s.calls.length - 1)

end Site

/-! ## Files of a program -/

/-- The suffix of the file of a page. -/
def pageSuffix (page : Nat) : String := String.ofList ('-' :: padded 2 page) ++ ".png"

/-- The number behind the option for the last page. -/
def lastPageOption : List String → Option Nat
  | "-l" :: n :: _ => (readInt? n.toList).map Int.toNat
  | _ :: rest => lastPageOption rest
  | [] => none

/-- The number of pages a program renders. -/
def Script.pagesRendered (s : Script) (r : Request) : Nat :=
  match s.pages, lastPageOption r.arguments with
  | some n, some cap => min n cap
  | some n, none => n
  | none, _ => 0

/-- The files a program makes. -/
def Script.files (s : Script) (r : Request) : List String :=
  (s.suffixes ++ (List.range (s.pagesRendered r)).map fun i => pageSuffix (i + 1)).map
    ((r.words.getLast?.getD "") ++ ·)

/-- What a program that ended by itself gives. -/
def Script.result (s : Script) (r : Request) : Except Fault Yield :=
  if s.status = 0 then .ok ⟨s.output, s.files r⟩
  else .error (r.failure.fault (.of r.program (Utf8.decodeString s.report) (some s.status)))

namespace Shell

/-- Changes the site. -/
def change (f : Site → Site) : Shell Unit := fun s => (.ok (), f s)

/-- Asks about tools. -/
def ask {α : Type} (question : StateM Tools α) : Shell α := fun s =>
  let (answer, s) := s.ask question
  (.ok answer, s)

/-- Takes a record. -/
def note (source : Source) (level : Level) (text : String) : Shell Unit :=
  change (·.note source level text)

/-- Changes the logbook. -/
def report (f : Logbook → Logbook) : Shell Unit := change fun s => { s with book := f s.book }

/-- Fails once the cancellation has fired. -/
def check : Shell Unit := fun s => (if s.fired then .error .cancelled else .ok (), s)

/-- Starts a program. -/
def launch (r : Request) : Shell Script := fun s =>
  let s := s.note .program .debug ("exec: " ++ " ".intercalate r.words)
  let (script, s) := s.takeScript r.program
  let s := { s with calls := s.calls ++ [⟨r.words, 0⟩], book := s.book.tick script.tick }
  match script.startFault with
  | some e => (.error e, s)
  | none => (.ok script, s)

/-- How the wait for a started program goes. A caller that is given up
while it has to wait is left waiting. -/
def courseOf (s : Site) (r : Request) (script : Script) : Outcome :=
  match s.abandoned, script.ending with
  | true, .after _ => .waiting
  | true, .never => .waiting
  | _, _ => script.outcome r.limit s.signal.isSome

/-- Tries to stop the program that was started last. -/
def tryStop (script : Script) : Shell Unit := fun s =>
  (if script.gone then .error .lost else .ok (), s.stopLatest)

/-- Stops the program that was started last. That it is there no more is
passed over. -/
def stop (script : Script) : Shell Unit :=
  tryCatch (tryStop script) fun
    | .lost => pure ()
    | e => throw e

theorem stop_eq (script : Script) (s : Site) : stop script s = (.ok (), s.stopLatest) := by
  change (ExceptT.tryCatch (tryStop script) _ : Shell Unit) s = _
  simp only [ExceptT.tryCatch, ExceptT.mk, bind, StateT.bind, tryStop]
  cases script.gone <;> rfl

/-- Waits for a started program. -/
def await (r : Request) (script : Script) : Shell Yield := fun s =>
  let o := courseOf s r script
  let s := s.fire (script.fires o)
  match o with
  | .ended => (script.result r, s)
  | .cancelled => (do stop script; throw .cancelled : Shell Yield) s
  | .timedOut => (do stop script; throw (.timeout r.program (r.limit.getD 0)) : Shell Yield) s
  | .waiting => (do stop script; throw .abandoned : Shell Yield) s

theorem stop_throw_eq (script : Script) (e : Fault) (s : Site) :
    (do stop script; throw e : Shell Yield) s = (.error e, s.stopLatest) := by
  change (ExceptT.bind (stop script) _ : Shell Yield) s = _
  simp only [ExceptT.bind, ExceptT.mk, bind, StateT.bind, stop_eq]
  rfl

/-- A program that does not end by itself is stopped. -/
theorem await_eq (r : Request) (script : Script) (s : Site) :
    await r script s =
      match courseOf s r script with
      | .ended => (script.result r, s.fire (script.fires (courseOf s r script)))
      | .cancelled =>
        (.error .cancelled, (s.fire (script.fires (courseOf s r script))).stopLatest)
      | .timedOut => (.error (.timeout r.program (r.limit.getD 0)),
          (s.fire (script.fires (courseOf s r script))).stopLatest)
      | .waiting =>
        (.error .abandoned, (s.fire (script.fires (courseOf s r script))).stopLatest) := by
  rw [await]
  cases courseOf s r script with
  | ended => rfl
  | cancelled => exact stop_throw_eq ..
  | timedOut => exact stop_throw_eq ..
  | waiting => exact stop_throw_eq ..

/-- Runs a program. It is stopped when the cancellation fires or its time
is over, and is not started at all once the cancellation has fired. -/
def run (r : Request) : Shell Yield := do
  check
  let script ← launch r
  await r script

/-- Starts a program that is waited for later. -/
def start (r : Request) : Shell Started := do
  check
  let script ← launch r
  return ⟨r, script, (← get).calls.length - 1⟩

/-- Waits for a program that was started some time ago. Others may have been
started since. -/
def awaitStarted (p : Started) : Shell Yield := fun s =>
  let o := courseOf s p.request p.script
  let s := s.fire (p.script.fires o)
  match o with
  | .ended => (p.script.result p.request, s)
  | .cancelled => (.error .cancelled, s.stopCall p.call)
  | .timedOut =>
    (.error (.timeout p.request.program (p.request.limit.getD 0)), s.stopCall p.call)
  | .waiting => (.error .abandoned, s.stopCall p.call)

theorem await_eq_awaitStarted (r : Request) (script : Script) :
    await r script = get >>= fun s => awaitStarted ⟨r, script, s.calls.length - 1⟩ := by
  funext s
  show await r script s = awaitStarted ⟨r, script, s.calls.length - 1⟩ s
  rw [await_eq, awaitStarted]
  cases courseOf s r script with
  | ended => rfl
  | cancelled => rfl
  | timedOut => rfl
  | waiting => rfl

/-- To run a program is to start it and to wait for it at once. -/
theorem run_eq (r : Request) : run r = start r >>= awaitStarted := by
  simp only [run, start, await_eq_awaitStarted, bind_assoc, pure_bind]

theorem run_of_fired {s : Site} (r : Request) (h : s.signal = some true) :
    run r s = (.error .cancelled, s) := by
  have hf : s.fired = true := by simp [Site.fired, h]
  have hcheck : check s = (.error .cancelled, s) := by
    rw [check, if_pos hf]
  change (ExceptT.bind check _ : Shell Yield) s = _
  simp only [ExceptT.bind, ExceptT.mk, bind, StateT.bind, hcheck]
  rfl

end Shell
end Intake
