import Intake.Loop.Basic
import Intake.Session.Overlay
import Intake.Session.Workshop

/-!
# Sittings

A session that somebody watches at a console. Keys come line by line; a
line is read only when the session has nothing else to do, and behind the
last line the session is left.

* `Sitting.keyOfLine` reads a line.
* `Sitting.run` goes on until the session is closed; the overlay is shown
  after everything that happens to it.
-/

namespace Intake

open Text

/-- A workshop with its loop and the lines that were not read. -/
structure Sitting where
  shop : Workshop
  loop : Loop Delivery Task := {}
  lines : List String := []
  /-- What broke the session off. -/
  fault : Option Fault := none

namespace Sitting

/-- The names for keys on a line of their own. -/
def lineNames : List (String × String) := [("", "enter"), ("q", "esc"), ("quit", "esc")]

/-- The key a line stands for. Blank ends and letter case make no
difference. -/
def keyOfLine (line : String) : Key :=
  let name := String.ofList (lowered (trim line.toList))
  Key.ofName ((lineNames.lookup name).getD name)

/-- Writes a line to the console. -/
def print (s : Sitting) (line : String) : Sitting :=
  let site := s.shop.site
  { s with shop := { s.shop with site := { site with
      book := { site.book with journal := site.book.journal.print line } } } }

/-- Whether the session is still open. -/
def isOpen (s : Sitting) : Bool := s.shop.bench.session.isSome && s.fault.isNone

/-- Shows what has become of the session. -/
def «show» (s : Sitting) : Sitting :=
  let bench := s.shop.bench
  match s.fault, bench.session with
  | some _, _ => s
  | none, some _ => s.print (bench.overlay s.shop.site.book.clock ++ "\n")
  | none, none => if bench.statusError.isEmpty then s else s.print ("error: " ++ bench.statusError)

/-- Takes what is delivered at the workshop; a fault is kept beside it. -/
def update : Loop.Update (Workshop × Option Fault) Delivery Task := fun (shop, fault) d =>
  match Workshop.handle d shop with
  | (.ok c, shop) => ((shop, fault), c.map .fresh)
  | (.error e, shop) => ((shop, some e), none)

/-- Carries the tasks on until one of them ends, and tells which and what
it delivers. -/
def firstEnded (shop : Workshop) :
    List Task → Workshop × List Task × Option (Nat × Option Delivery)
  | [] => (shop, [], none)
  | t :: rest =>
    match Workshop.proceed t shop with
    | (.ended d, shop) => (shop, t :: rest, some (0, d))
    | (t, shop) =>
      let (shop, rest, ended) := firstEnded shop rest
      (shop, t :: rest, ended.map fun (i, d) => (i + 1, d))

/-- Reads the next line, or leaves the session behind the last one. -/
def readLine (s : Sitting) : Sitting :=
  match s.lines with
  | [] => { s with loop := s.loop.send (.key .escape) }
  | line :: rest => { s with loop := s.loop.send (.key (keyOfLine line)), lines := rest }

/-- Carries the background on until something is delivered. Workers get on
by one program while a delivery is under way. -/
def advance (s : Sitting) : Sitting :=
  let (shop, tasks, ended) := firstEnded s.shop s.loop.running
  let s := { s with shop := shop, loop := { s.loop with running := tasks } }
  let stride (s : Sitting) : Sitting := { s with shop := (Workshop.stride s.shop).2 }
  match ended with
  | some (i, d) => stride { s with loop := s.loop.finish i d }
  | none =>
    if s.shop.isReady then stride s
    else
      match Workshop.pass s.shop with
      | (true, shop) => { s with shop := shop }
      | (false, shop) => { s with shop := shop }.readLine

/-- One step: what waits is handled and shown; if nothing waits the
background goes on. -/
def step (s : Sitting) : Sitting :=
  match Loop.step update (s.shop, s.fault) s.loop with
  | some (_, (shop, fault), loop) => { s with shop := shop, fault := fault, loop := loop }.show
  | none => s.advance

/-- Steps until the session is closed, at most so often. -/
def runWithin : Nat → Sitting → Sitting
  | 0, s => s
  | fuel + 1, s => if s.isOpen then runWithin fuel s.step else s

/-- A bound on the steps of a sitting. -/
def bound (s : Sitting) : Nat := 8 * (s.lines.length + 2) * s.shop.remaining

/-- Stops what is still in the background. A stream is closed only while
something else is waited for. -/
def shutdown (s : Sitting) : Sitting :=
  let shop := if s.loop.running.isEmpty then s.shop else (Workshop.closeStreams s.shop).2
  { s with
    loop := s.loop.shutdown
    shop := { shop with site := shop.workers.foldl Worker.abandon shop.site } }

/-- Goes on until the session is closed. -/
def run (s : Sitting) : Sitting := (runWithin s.bound s).shutdown

end Sitting
end Intake
